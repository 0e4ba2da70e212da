/-
# Settings

The settings name the prefixes that the bot listens to, how often the
dealer's key is renewed, and how answers are shown.

A prefix is usable if it is not empty and holds no separator and no control,
format or private-use character, so that no message that is empty or starts
with white space can start with one.

Key definitions: `Settings`, `Settings.default`, `Settings.IsUsablePrefix`.
Key theorem: `Settings.not_isSpace_of_isUsablePrefix`.
-/
import DiceTower.Text.Basic

namespace DiceTower

open Text

/-- How answers are shown. -/
inductive OutputFormat where
  /-- Each answer as text, followed by an empty line. -/
  | text
  /-- Each answer as one line of JSON. -/
  | json
deriving DecidableEq

/-- The word for a format in the settings file. -/
def OutputFormat.name : OutputFormat → Text
  | text => "text".toList
  | json => "json".toList

/-- What the bot is told by its settings file. -/
structure Settings where
  /-- What commands start with. -/
  commandPrefix : Text
  /-- What plain rolls may start with. -/
  rollPrefixes : List Text
  /-- After how many seconds the dealer's key is renewed. -/
  reseedSeconds : Nat
  /-- How answers are shown. -/
  output : OutputFormat
deriving DecidableEq

namespace Settings

/-- The settings that hold where a file says nothing. -/
def default : Settings := ⟨['!'], [], 300, .text⟩

/-! ### Usable prefixes -/

/-- The code points that no prefix may hold, as closed ranges: the control,
format and private-use characters and the separators. -/
def forbiddenRanges : List (Nat × Nat) :=
  [(0x0000, 0x001F), (0x0020, 0x0020), (0x007F, 0x009F), (0x00A0, 0x00A0), (0x00AD, 0x00AD),
    (0x0600, 0x0605), (0x061C, 0x061C), (0x06DD, 0x06DD), (0x070F, 0x070F), (0x1680, 0x1680),
    (0x180E, 0x180E), (0x2000, 0x200A), (0x200B, 0x200F), (0x2028, 0x2029), (0x202A, 0x202E),
    (0x202F, 0x202F), (0x205F, 0x205F), (0x2060, 0x2064), (0x2066, 0x206F), (0x3000, 0x3000),
    (0xE000, 0xF8FF), (0xFEFF, 0xFEFF), (0xFFF9, 0xFFFB), (0x110BD, 0x110BD),
    (0x1BCA0, 0x1BCA3), (0x1D173, 0x1D17A), (0xE0001, 0xE0001), (0xE0020, 0xE007F),
    (0xF0000, 0xFFFFD), (0x100000, 0x10FFFD)]

/-- Whether no prefix may hold the character. -/
def isForbidden (c : Char) : Bool := inRanges forbiddenRanges c

/-- The text may be used as a prefix. -/
def IsUsablePrefix (lead : Text) : Prop := lead ≠ [] ∧ ∀ c ∈ lead, isForbidden c = false

instance (lead : Text) : Decidable (IsUsablePrefix lead) :=
  @instDecidableAnd _ _ _ (List.decidableBAll _ lead)

/-- White space is forbidden. -/
theorem isForbidden_of_isSpace {c : Char} (h : isSpace c = true) : isForbidden c = true := by
  simp only [isSpace, isForbidden, inRanges, spaceRanges, forbiddenRanges, List.any_cons,
    List.any_nil, Bool.or_eq_true, Bool.and_eq_true, decide_eq_true_eq, Bool.false_eq_true,
    or_false] at h ⊢
  omega

/-- A usable prefix holds no white space. -/
theorem not_isSpace_of_isUsablePrefix {lead : Text} (h : IsUsablePrefix lead) {c : Char}
    (hc : c ∈ lead) : isSpace c = false := by
  cases hs : isSpace c with
  | false => rfl
  | true => exact absurd (isForbidden_of_isSpace hs) (by simp [h.2 c hc])

end Settings
end DiceTower
