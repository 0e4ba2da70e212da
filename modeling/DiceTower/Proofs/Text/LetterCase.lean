/-
# Texts that differ in letter case

A text with its ASCII letters in lower case has the same white space, the same
digits and the same octets in the same places, and its letters agree with the
same keywords (`apply_toLower`). So cutting, trimming, splitting into words and
reading keywords find in it what they find in the text itself, in lower case:
each of them commutes with `Text.lower`.

Key definition: `Text.lower`.
Key theorems: `Text.apply_toLower`, `Text.trim_lower`, `Text.words_lower`,
`Text.oneOf_lower`.
-/
import DiceTower.Proofs.Text.Spelling

namespace DiceTower
namespace Text

/-- The text with its ASCII letters in lower case. -/
def lower (text : Text) : Text := text.map Char.toLower

/-! ### Characters -/

/-- What is the same for each of the first characters and its lower case is so
for all: behind the capital letters nothing changes. -/
theorem apply_toLower {α : Type} {f : Char → α}
    (h : ∀ n < 91, f (Char.ofNat n).toLower = f (Char.ofNat n)) (c : Char) :
    f c.toLower = f c := by
  by_cases hc : 90 < c.toNat
  · rw [toLower_eq_self_of_lt hc]
  · have hn := h c.toNat (by omega)
    rwa [Char.ofNat_toNat] at hn

theorem isSpace_toLower (c : Char) : isSpace c.toLower = isSpace c := apply_toLower (by decide) c

theorem isBlank_toLower (c : Char) : isBlank c.toLower = isBlank c := apply_toLower (by decide) c

theorem isDigit_toLower (c : Char) : c.toLower.isDigit = c.isDigit :=
  apply_toLower (f := Char.isDigit) (by decide) c

theorem fold_toLower (c : Char) : fold c.toLower = fold c := apply_toLower (by decide) c

theorem utf8Size_toLower (c : Char) : c.toLower.utf8Size = c.utf8Size :=
  apply_toLower (f := Char.utf8Size) (by decide) c

theorem toLower_toLower (c : Char) : c.toLower.toLower = c.toLower :=
  apply_toLower (f := Char.toLower) (by decide) c

/-- A character that is no letter is the lower case of itself alone. -/
theorem toLower_eq_iff {c k : Char} (hk : k.toLower = k) (hup : k.toUpper = k) :
    c.toLower = k ↔ c = k := by
  constructor
  · intro h
    rcases eq_or_eq_toUpper_of_toLower_eq h with h | h
    · exact h
    · rw [h, hup]
  · rintro rfl
    exact hk

/-! ### Texts -/

theorem lower_nil : lower [] = [] := rfl

theorem lower_cons (c : Char) (text : Text) : lower (c :: text) = c.toLower :: lower text := rfl

theorem lower_append (front back : Text) : lower (front ++ back) = lower front ++ lower back :=
  List.map_append

theorem lower_eq_nil_iff {text : Text} : lower text = [] ↔ text = [] := List.map_eq_nil_iff

theorem lower_lower (text : Text) : lower (lower text) = lower text := by
  unfold lower
  rw [List.map_map]
  exact List.map_congr_left fun c _ => toLower_toLower c

section

variable {p : Char → Bool} (hp : ∀ c, p c.toLower = p c)

include hp

theorem takeWhile_lower (text : Text) : (lower text).takeWhile p = lower (text.takeWhile p) := by
  have hcomp : p ∘ Char.toLower = p := funext hp
  unfold lower
  rw [List.takeWhile_map, hcomp]

theorem dropWhile_lower (text : Text) : (lower text).dropWhile p = lower (text.dropWhile p) := by
  have hcomp : p ∘ Char.toLower = p := funext hp
  unfold lower
  rw [List.dropWhile_map, hcomp]

/-- The pieces between the characters of a class. -/
theorem splitOnP_lower (text : Text) :
    (lower text).splitOnP p = (text.splitOnP p).map lower := by
  induction text with
  | nil => rfl
  | cons c rest ih =>
    rw [lower_cons, List.splitOnP_cons_eq_if_modifyHead, List.splitOnP_cons_eq_if_modifyHead, hp, ih]
    by_cases hc : p c = true
    · rw [if_pos hc, if_pos hc, List.map_cons, lower_nil]
    · rw [if_neg hc, if_neg hc]
      cases rest.splitOnP p with
      | nil => rfl
      | cons first others => rfl

end

/-! ### White space and blanks -/

theorem trim_lower (text : Text) : trim (lower text) = lower (trim text) := by
  unfold trim trimEnd
  rw [dropWhile_lower isSpace_toLower]
  unfold lower
  rw [← List.map_reverse, ← lower, dropWhile_lower isSpace_toLower, lower, List.map_reverse]

theorem words_lower (text : Text) : words (lower text) = (words text).map lower := by
  have hempty : (fun word : Text => !word.isEmpty) ∘ lower = fun word => !word.isEmpty := by
    funext word
    cases word <;> rfl
  unfold words
  rw [splitOnP_lower isSpace_toLower, List.filter_map, hempty]

theorem skipBlanks_lower (text : Text) : skipBlanks (lower text) = lower (skipBlanks text) :=
  dropWhile_lower isBlank_toLower text

theorem skipBlanks1?_lower (text : Text) :
    skipBlanks1? (lower text) = (skipBlanks1? text).map lower := by
  cases text with
  | nil => rfl
  | cons c rest =>
    rw [lower_cons, skipBlanks1?, skipBlanks1?, isBlank_toLower, skipBlanks_lower]
    by_cases hc : isBlank c = true
    · rw [if_pos hc, if_pos hc]
      rfl
    · rw [if_neg hc, if_neg hc]
      rfl

/-! ### Keywords -/

theorem agrees_lower : ∀ text word : Text, agrees (lower text) word = agrees text word
  | [], _ => rfl
  | _ :: _, [] => rfl
  | c :: text, k :: word => by
    rw [lower_cons, agrees, agrees, fold_toLower, agrees_lower text word]

theorem octets_lower (text : Text) : octets (lower text) = octets text := by
  induction text with
  | nil => rfl
  | cons c rest ih => rw [lower_cons, octets, octets, utf8Size_toLower, ih]

theorem dropOctets_lower : ∀ (n : Nat) (text : Text),
    dropOctets n (lower text) = (dropOctets n text).map lower
  | 0, text => by
    cases text <;> rfl
  | n + 1, [] => rfl
  | n + 1, c :: rest => by
    rw [lower_cons, dropOctets, dropOctets, utf8Size_toLower]
    by_cases hc : c.utf8Size ≤ n + 1
    · rw [if_pos hc, if_pos hc, dropOctets_lower (n + 1 - c.utf8Size) rest]
    · rw [if_neg hc, if_neg hc]
      rfl
termination_by n => n
decreasing_by
  have := c.utf8Size_pos
  omega

/-- **Keywords are found alike.** -/
theorem keyword_lower (word text : Text) :
    keyword word (lower text) = (keyword word text).map (Option.map lower) := by
  unfold keyword
  rw [agrees_lower, octets_lower, dropOctets_lower]
  by_cases hagree : agrees text word = true
  · rw [if_pos hagree, if_pos hagree]
    by_cases hle : octets word ≤ octets text
    · rw [if_pos hle, if_pos hle]
      cases dropOctets (octets word) text <;> rfl
    · rw [if_neg hle, if_neg hle]
      rfl
  · rw [if_neg hagree, if_neg hagree]
    rfl

theorem oneOf_lower {α : Type} (text : Text) : ∀ words : List (Text × α), oneOf words (lower text) =
    (oneOf words text).map (Option.map fun found => (found.1, lower found.2))
  | [] => rfl
  | (word, a) :: others => by
    rw [oneOf, oneOf, keyword_lower]
    cases keyword word text with
    | error e => rfl
    | ok found =>
      cases found with
      | none => exact oneOf_lower text others
      | some rest => rfl

end Text
end DiceTower
