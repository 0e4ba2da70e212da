/-
# Keywords in any case

A keyword is compared with the start of a text character by character, both
folded to lower case, as far as the shorter of the two reaches. If they agree
and the text has at least as many octets as the keyword, the text is cut
behind the keyword's octets. The Kelvin sign folds to `k` but takes three
octets, so that the cut can fall inside it; reading then breaks off.

Key definitions: `Text.fold`, `Text.agrees`, `Text.dropOctets`,
`Text.keyword`, `Text.oneOf`.
Key theorems: `Text.keyword_append`,
`Text.keyword_eq_none_of_disagrees`.
-/
import DiceTower.Text.Basic

namespace DiceTower

/-- Reading broke off because a cut fell inside a character. -/
structure SplitCharacter where
deriving DecidableEq

namespace Text

/-! ### Case folding -/

/-- The Kelvin sign. -/
def kelvin : Char := '\u212a'

/-- The lower case of a character, as far as it is an ASCII letter; every other
character stands for itself. -/
def fold (c : Char) : Char := if c = kelvin then 'k' else c.toLower

/-- The two texts agree up to case, as far as the shorter one reaches. -/
def agrees : Text → Text → Bool
  | c :: text, k :: keyword => fold c == fold k && agrees text keyword
  | _, _ => true

/-! ### Cutting by octets -/

/-- The number of octets of a text in UTF-8. -/
def octets : Text → Nat
  | [] => 0
  | c :: rest => c.utf8Size + octets rest

/-- The text behind its first `n` octets, unless they end inside a character. -/
def dropOctets : Nat → Text → Option Text
  | 0, text => some text
  | _ + 1, [] => none
  | n + 1, c :: rest => if c.utf8Size ≤ n + 1 then dropOctets (n + 1 - c.utf8Size) rest else none

/-- A whole text is cut off by its octets. -/
theorem dropOctets_append (text rest : Text) :
    dropOctets (octets text) (text ++ rest) = some rest := by
  induction text with
  | nil => simp [octets, dropOctets]
  | cons c text ih =>
    obtain ⟨n, hn⟩ : ∃ n, c.utf8Size + octets text = n + 1 :=
      ⟨c.utf8Size + octets text - 1, by have := c.utf8Size_pos; omega⟩
    have hsub : n + 1 - c.utf8Size = octets text := by omega
    simp only [octets, List.cons_append, hn, dropOctets]
    rw [if_pos (by omega), hsub, ih]

theorem octets_append (text rest : Text) : octets (text ++ rest) = octets text + octets rest := by
  induction text with
  | nil => simp [octets]
  | cons c text ih => simp [octets, ih, Nat.add_assoc]

/-! ### Keywords -/

/-- The text behind a keyword at its start, if it starts with the keyword. -/
def keyword (word text : Text) : Except SplitCharacter (Option Text) :=
  if agrees text word then
    if octets word ≤ octets text then
      match dropOctets (octets word) text with
      | some rest => .ok (some rest)
      | none => .error ⟨⟩
    else .ok none
  else .ok none

/-- The first of several keywords that the text starts with, and what follows it. -/
def oneOf {α : Type} : List (Text × α) → Text → Except SplitCharacter (Option (α × Text))
  | [], _ => .ok none
  | (word, a) :: others, text =>
    match keyword word text with
    | .error e => .error e
    | .ok (some rest) => .ok (some (a, rest))
    | .ok none => oneOf others text

/-- A text that disagrees with a keyword does not start with it, and reading goes on. -/
theorem keyword_eq_none_of_disagrees {word text : Text} (h : agrees text word = false) :
    keyword word text = .ok none := by
  simp [keyword, h]

theorem agrees_append {start word : Text} (rest : Text) (hl : start.length = word.length)
    (h : agrees start word = true) : agrees (start ++ rest) word = true := by
  induction start generalizing word with
  | nil =>
    cases word with
    | nil => cases rest <;> rfl
    | cons k word => simp at hl
  | cons c start ih =>
    cases word with
    | nil => simp at hl
    | cons k word =>
      simp only [agrees, Bool.and_eq_true] at h
      simp only [List.length_cons, Nat.add_right_cancel_iff] at hl
      simp [agrees, h.1, ih hl h.2]

/-- A keyword in any case is found where its spelling takes as many octets. -/
theorem keyword_append {start word : Text} (rest : Text) (hl : start.length = word.length)
    (ho : octets start = octets word) (h : agrees start word = true) :
    keyword word (start ++ rest) = .ok (some rest) := by
  simp only [keyword, agrees_append rest hl h, if_true, octets_append, ← ho]
  rw [if_pos (Nat.le_add_right _ _), dropOctets_append]

end Text
end DiceTower
