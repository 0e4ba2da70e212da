/-
# Tokens of texts that are put together

White space keeps the words of two texts apart, however long the run of it is,
so the tokens of two texts with white space between them are those of the
first and then those of the second (`tokens_append_spaces`).

A token is a notation from end to end and holds no white space, so tokens that
are written one after another with white space between neighbours are the
tokens of the text they make up (`tokens_of_spaced`). The white space may be
another run in each place.

Key definitions: `Text.Spaces`, `Text.Spaced`.
Key theorems: `Text.words_append_spaces`, `Notation.tokens_of_spaced`,
`Notation.tokens_compose`.
-/
import DiceTower.Proofs.Notation.Tokens

namespace DiceTower

namespace Text

/-! ### Runs of white space -/

/-- The text is a run of one or more characters of white space. -/
def Spaces (gap : Text) : Prop := gap ≠ [] ∧ ∀ c ∈ gap, isSpace c = true

theorem spaces_singleton {c : Char} (h : isSpace c = true) : Spaces [c] := by
  refine ⟨by simp, ?_⟩
  intro d hd
  rwa [List.mem_singleton.mp hd]

/-- **Words split at runs of white space.** -/
theorem words_append_spaces {gap : Text} (h : Spaces gap) (front back : Text) :
    words (front ++ gap ++ back) = words front ++ words back := by
  obtain ⟨hne, hspace⟩ := h
  obtain ⟨c, rest, rfl⟩ := List.exists_cons_of_ne_nil hne
  have hrest : words (rest ++ back) = words back :=
    words_append_of_isSpace_left (fun d hd => hspace d (List.mem_cons_of_mem _ hd)) back
  rw [List.append_assoc, List.cons_append, words_append_space (hspace c List.mem_cons_self), hrest]

/-- The text consists of the pieces, with a run of white space between neighbours. -/
inductive Spaced : List Text → Text → Prop
  | nil : Spaced [] []
  | single (piece : Text) : Spaced [piece] piece
  | cons (piece : Text) {gap next text : Text} {others : List Text} (hgap : Spaces gap)
      (hrest : Spaced (next :: others) text) :
      Spaced (piece :: next :: others) (piece ++ gap ++ text)

/-- One character of white space may stand between all neighbours. -/
theorem spaced_intercalate {c : Char} (h : isSpace c = true) :
    ∀ pieces : List Text, Spaced pieces ([c].intercalate pieces)
  | [] => .nil
  | [piece] => by
    rw [List.intercalate_singleton]
    exact .single piece
  | piece :: next :: others => by
    rw [List.intercalate_cons_cons]
    exact .cons piece (spaces_singleton h) (spaced_intercalate h (next :: others))

end Text

open Text

namespace Notation

/-! ### Tokens -/

theorem tokens_append_spaces {gap : Text} (h : Spaces gap) (front back : Text) :
    tokens (front ++ gap ++ back) = tokens front ++ tokens back := by
  unfold tokens
  rw [words_append_spaces h, List.filter_append]

/-- **Notations with white space between them are the tokens of their text.** -/
theorem tokens_of_spaced {notations : List Text} {text : Text} (h : Spaced notations text)
    (hall : ∀ token ∈ notations, HasShape token) : tokens text = notations := by
  induction h with
  | nil => exact tokens_nil
  | single token => exact tokens_of_hasShape (hall token List.mem_cons_self)
  | cons token hgap _ ih =>
    have hfirst : tokens token = [token] := tokens_of_hasShape (hall token List.mem_cons_self)
    rw [tokens_append_spaces hgap, hfirst, ih fun t ht => hall t (List.mem_cons_of_mem _ ht),
      List.singleton_append]

/-- **Tokens compose.** With white space between two texts the tokens are those of
the first and then those of the second; white space at the ends of a text adds
none and takes none away; and the tokens of a text, written one after another
with white space between neighbours, have the same tokens again: with one and
the same character everywhere, and with any run in each place. -/
theorem tokens_compose :
    (∀ front gap back : Text, gap ≠ [] → (∀ c ∈ gap, isSpace c = true) →
      tokens (front ++ gap ++ back) = tokens front ++ tokens back) ∧
    (∀ text : Text, tokens (trim text) = tokens text) ∧
    (∀ (text : Text) (c : Char), isSpace c = true →
      tokens ([c].intercalate (tokens text)) = tokens text) ∧
    ∀ text joined : Text, Spaced (tokens text) joined → tokens joined = tokens text := by
  have hagain : ∀ text joined : Text, Spaced (tokens text) joined → tokens joined = tokens text :=
    fun text joined h => tokens_of_spaced h fun token htoken => (mem_tokens_iff.mp htoken).2
  refine ⟨?_, tokens_trim, ?_, hagain⟩
  · intro front gap back hne hspace
    exact tokens_append_spaces ⟨hne, hspace⟩ front back
  · intro text c hc
    exact hagain text _ (spaced_intercalate hc (tokens text))

example : tokens "\u2003 2d6\u0085and d4+1 \u3000".toList = ["2d6".toList, "d4+1".toList] := by
  decide

end Notation
end DiceTower
