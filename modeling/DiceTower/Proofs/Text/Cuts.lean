/-
# Cuts at octets

A cut behind some number of octets is clean if it falls between two
characters; what stands behind a clean cut is an end of the text, and every
end of it stands behind one (`cutsCleanly_iff_suffix`).

Reading a keyword cuts at the keyword's octets. The cut fails to be clean in
one case only: the keyword ends with `k`, and the text spells it in letters of
either case up to there and goes on with the Kelvin sign
(`keyword_eq_error_iff`). A keyword that does not end with `k` is read without
breaking off, whatever the text.

Key definitions: `Text.CutsCleanly`, `Text.ReadsCleanly`, `Text.KelvinBehind`.
Key theorems: `Text.cutsCleanly_iff_suffix`, `Text.keyword_eq_error_iff`,
`Text.oneOf_cons_eq_error_iff`.
-/
import DiceTower.Proofs.Text.Spelling

namespace DiceTower
namespace Text

variable {α : Type}

/-! ### Clean cuts -/

/-- The rest stands behind a cut of the text that falls between two characters. -/
def CutsCleanly (text rest : Text) : Prop := ∃ n, dropOctets n text = some rest

theorem suffix_of_dropOctets : ∀ {n : Nat} {text rest : Text}, dropOctets n text = some rest →
    rest <:+ text
  | 0, text, rest, h => by
    rw [dropOctets] at h
    obtain rfl := Option.some.inj h
    exact List.suffix_refl text
  | n + 1, [], rest, h => by
    rw [dropOctets] at h
    cases h
  | n + 1, c :: text, rest, h => by
    rw [dropOctets] at h
    by_cases hc : c.utf8Size ≤ n + 1
    · rw [if_pos hc] at h
      exact (suffix_of_dropOctets h).trans (List.suffix_cons c text)
    · rw [if_neg hc] at h
      cases h
termination_by n => n
decreasing_by
  have := c.utf8Size_pos
  omega

/-- **What stands behind a clean cut is an end of the text.** -/
theorem cutsCleanly_iff_suffix {text rest : Text} : CutsCleanly text rest ↔ rest <:+ text := by
  constructor
  · rintro ⟨n, h⟩
    exact suffix_of_dropOctets h
  · rintro ⟨front, rfl⟩
    exact ⟨octets front, dropOctets_append front rest⟩

/-- What the reader leaves over stands behind a clean cut. -/
def ReadsCleanly (reader : Text → Option (α × Text)) : Prop :=
  ∀ text found rest, reader text = some (found, rest) → CutsCleanly text rest

theorem cutsCleanly_dropWhile (p : Char → Bool) (text : Text) :
    CutsCleanly text (text.dropWhile p) :=
  cutsCleanly_iff_suffix.mpr (List.dropWhile_suffix p)

theorem cutsCleanly_drop (n : Nat) (text : Text) : CutsCleanly text (text.drop n) :=
  cutsCleanly_iff_suffix.mpr (List.drop_suffix n text)

/-! ### Keywords that break off -/

/-- The text spells the stem in letters of either case and goes on with the
Kelvin sign. -/
def KelvinBehind (stem text : Text) : Prop := ∃ rest, StartsWith stem text (kelvin :: rest)

theorem KelvinBehind.kelvin_mem {stem text : Text} (h : KelvinBehind stem text) :
    kelvin ∈ text := by
  obtain ⟨rest, start, -, rfl⟩ := h
  exact List.mem_append_right start List.mem_cons_self

theorem agrees_nil (text : Text) : agrees text [] = true := by
  cases text <;> rfl

/-- A letter is read as the same letter of a keyword. -/
theorem agrees_cons_of_toLower {c k : Char} (hk : k.isLower = true) (hc : c.toLower = k)
    (text word : Text) : agrees (c :: text) (k :: word) = agrees text word := by
  have hle : c.toNat ≤ 122 := by
    refine toNat_le_of_isLower_toLower ?_
    rw [hc, hk]
  rw [agrees, fold_eq_toLower hle, fold_of_isLower hk, hc, beq_self_eq_true, Bool.true_and]

/-- Where a keyword agrees with the text but the cut is not clean, the Kelvin
sign stands in the place of its last letter. -/
theorem kelvinBehind_of_agrees : ∀ {word text : Text}, isKeyword word = true →
    agrees text word = true → octets word ≤ octets text →
    dropOctets (octets word) text = none → ∃ stem, word = stem ++ ['k'] ∧ KelvinBehind stem text
  | [], text, _, _, _, hdrop => by
    simp [octets, dropOctets] at hdrop
  | k :: word, [], hw, _, hle, _ => by
    have hpos := k.utf8Size_pos
    simp only [octets] at hle
    omega
  | k :: word, c :: text, hw, hagree, hle, hdrop => by
    obtain ⟨hlower, -, hword⟩ := isKeyword_cons hw
    have hk := utf8Size_eq_one (toNat_of_isLower hlower).2
    rcases agrees_cons_cases hw hagree with ⟨rfl, rfl, rfl⟩ | ⟨hc, hsize, hagree⟩
    · exact ⟨[], rfl, text, startsWith_nil _⟩
    · simp only [octets, hk, hsize] at hle
      rw [octets, hk, Nat.add_comm, dropOctets, hsize, if_pos (by omega),
        Nat.add_sub_cancel] at hdrop
      obtain ⟨stem, rfl, rest, hs⟩ := kelvinBehind_of_agrees hword hagree (by omega) hdrop
      rw [← hc]
      exact ⟨c.toLower :: stem, rfl, rest, startsWith_cons hs⟩

/-- The Kelvin sign agrees with a last `k`, and the cut falls inside it. -/
theorem agrees_of_kelvinBehind : ∀ {stem text : Text}, isKeyword (stem ++ ['k']) = true →
    KelvinBehind stem text → agrees text (stem ++ ['k']) = true ∧
      octets (stem ++ ['k']) ≤ octets text ∧ dropOctets (octets (stem ++ ['k'])) text = none
  | [], text, _, ⟨rest, hs⟩ => by
    have htext : text = kelvin :: rest := (startsWith_nil text).rest_eq hs
    have hletter : octets ([] ++ ['k']) = 1 := by decide
    have hsign : octets (kelvin :: rest) = 3 + octets rest := rfl
    rw [htext, hletter, hsign]
    have hfold : fold kelvin = fold 'k' := by decide
    refine ⟨?_, by omega, ?_⟩
    · rw [List.nil_append, agrees, hfold, beq_self_eq_true, agrees_nil, Bool.and_self]
    · rw [dropOctets, if_neg (by decide)]
  | k :: stem, text, hw, ⟨rest, hs⟩ => by
    obtain ⟨c, behind, rfl, hc, hs⟩ := hs.exists_cons
    obtain ⟨hlower, -, hword⟩ := isKeyword_cons hw
    obtain ⟨hagree, hle, hdrop⟩ := agrees_of_kelvinBehind hword ⟨rest, hs⟩
    have hk := utf8Size_eq_one (toNat_of_isLower hlower).2
    have hsize : c.utf8Size = 1 := by
      refine utf8Size_eq_one (toNat_le_of_isLower_toLower ?_)
      rw [hc, hlower]
    rw [List.cons_append, octets, octets, hk, hsize]
    refine ⟨?_, by omega, ?_⟩
    · rw [agrees_cons_of_toLower hlower hc, hagree]
    · rw [Nat.add_comm, dropOctets, hsize, if_pos (by omega), Nat.add_sub_cancel, hdrop]

/-- **Reading a keyword breaks off exactly at the Kelvin sign.** -/
theorem keyword_eq_error_iff {word text : Text} (hw : isKeyword word = true) :
    keyword word text = .error ⟨⟩ ↔ ∃ stem, word = stem ++ ['k'] ∧ KelvinBehind stem text := by
  constructor
  · intro h
    unfold keyword at h
    by_cases hagree : agrees text word = true
    · by_cases hle : octets word ≤ octets text
      · rw [if_pos hagree, if_pos hle] at h
        cases hdrop : dropOctets (octets word) text with
        | none => exact kelvinBehind_of_agrees hw hagree hle hdrop
        | some rest => simp [hdrop] at h
      · simp [hle] at h
    · simp [hagree] at h
  · rintro ⟨stem, rfl, hs⟩
    obtain ⟨hagree, hle, hdrop⟩ := agrees_of_kelvinBehind hw hs
    unfold keyword
    rw [if_pos hagree, if_pos hle, hdrop]

/-- A keyword with a `k` at its end breaks off at the Kelvin sign behind its stem. -/
theorem keyword_stem_eq_error_iff (stem : Text) (hw : isKeyword (stem ++ ['k']) = true)
    {text : Text} : keyword (stem ++ ['k']) text = .error ⟨⟩ ↔ KelvinBehind stem text := by
  rw [keyword_eq_error_iff hw]
  constructor
  · rintro ⟨stem', heq, hs⟩
    rwa [List.append_cancel_right heq]
  · intro hs
    exact ⟨stem, rfl, hs⟩

/-- A keyword that does not end with `k` is read without breaking off. -/
theorem keyword_ne_error {word : Text} (hw : isKeyword word = true)
    (hlast : word.getLast? ≠ some 'k') (text : Text) : keyword word text ≠ .error ⟨⟩ := by
  intro h
  obtain ⟨stem, rfl, -⟩ := (keyword_eq_error_iff hw).mp h
  exact hlast List.getLast?_concat

/-- A text that begins with another letter does not start with the keyword. -/
theorem keyword_eq_none_of_toLower_ne {c k : Char} {word : Text}
    (hw : isKeyword (k :: word) = true) (hc : c.toLower.isLower = true) (hne : c.toLower ≠ k)
    (text : Text) : keyword (k :: word) (c :: text) = .ok none := by
  refine keyword_eq_none_of_disagrees ?_
  have hfold : fold c ≠ fold k := by
    rw [fold_eq_toLower (toNat_le_of_isLower_toLower hc), fold_of_isLower (isKeyword_cons hw).1]
    exact hne
  rw [agrees, beq_false_of_ne hfold, Bool.false_and]

/-! ### Lists of keywords that break off -/

/-- Reading one of several keywords breaks off at the first, or at a later one
if the first is not found. -/
theorem oneOf_cons_eq_error_iff {word text : Text} {a : α} {others : List (Text × α)} :
    oneOf ((word, a) :: others) text = .error ⟨⟩ ↔ keyword word text = .error ⟨⟩ ∨
      keyword word text = .ok none ∧ oneOf others text = .error ⟨⟩ := by
  rw [oneOf]
  cases keyword word text with
  | error e => simp
  | ok found =>
    cases found with
    | none => simp
    | some rest => simp

/-- Reading breaks off at none of the keywords if it does at no single one. -/
theorem oneOf_ne_error {text : Text} : ∀ {words : List (Text × α)},
    (∀ p ∈ words, keyword p.1 text ≠ .error ⟨⟩) → oneOf words text ≠ .error ⟨⟩
  | [], _, h => by
    rw [oneOf] at h
    cases h
  | (word, a) :: others, hwords, h => by
    rcases oneOf_cons_eq_error_iff.mp h with h | ⟨-, h⟩
    · exact hwords _ List.mem_cons_self h
    · exact oneOf_ne_error (fun p hp => hwords p (List.mem_cons_of_mem _ hp)) h

end Text
end DiceTower
