/-
# Dice notation

A notation is a run of digits (the count, which may be left out), the letter
`d` of either case, a run of digits (the sides), and possibly a sign with a
run of digits (the modifier). `recognize?` finds the longest notation at the
start of a text by its shape alone. `read?` also converts the modifier; a
modifier that leaves the signed 64-bit range is not taken and stays in the
rest. The tokens of a text are those of its words that are notations from end
to end.

Key definitions: `Notation.Pieces`, `Notation.HasShape`,
`Notation.recognize?`, `Notation.read?`, `Notation.isNotation`,
`Notation.tokens`.
Key theorems: `Notation.recognize?_append_rest`, `Notation.tokens_nil`.
-/
import DiceTower.Text.Digits
import DiceTower.Number.Signed64

namespace DiceTower
namespace Notation

open Text

/-! ### The shape -/

/-- The pieces of a notation, as they stand in its text. -/
structure Pieces where
  /-- The digits in front of the letter. -/
  count : Text
  /-- The letter itself. -/
  letter : Char
  /-- The digits behind the letter. -/
  sides : Text
  /-- The sign and the digits of the modifier. -/
  signed : Option (Char × Text)
deriving DecidableEq

namespace Pieces

/-- The text of the sign and the digits of the modifier. -/
def signedText (p : Pieces) : Text :=
  match p.signed with
  | none => []
  | some (sign, run) => sign :: run

/-- The pieces one after another. -/
def text (p : Pieces) : Text := p.count ++ p.letter :: p.sides ++ p.signedText

/-- Each piece is of its kind, and only the count may be empty. -/
def Valid (p : Pieces) : Prop :=
  (∀ c ∈ p.count, c.isDigit = true) ∧
  (p.letter = 'd' ∨ p.letter = 'D') ∧
  (p.sides ≠ [] ∧ ∀ c ∈ p.sides, c.isDigit = true) ∧
  ∀ sign run, p.signed = some (sign, run) →
    (sign = '+' ∨ sign = '-') ∧ run ≠ [] ∧ ∀ c ∈ run, c.isDigit = true

end Pieces

/-- The text is a notation from end to end. -/
def HasShape (text : Text) : Prop := ∃ p : Pieces, p.Valid ∧ p.text = text

/-! ### The pieces, one at a time -/

/-- The letter of a notation, of either case. -/
def letter? : Text → Option (Char × Text)
  | [] => none
  | c :: rest => if c = 'd' ∨ c = 'D' then some (c, rest) else none

/-- A sign. -/
def sign? : Text → Option (Char × Text)
  | [] => none
  | c :: rest => if c = '+' ∨ c = '-' then some (c, rest) else none

/-- A sign and a run of digits behind it. -/
def signedDigits? (text : Text) : Option ((Char × Text) × Text) := do
  let (sign, rest) ← sign? text
  let (run, rest) ← digits? rest
  return ((sign, run), rest)

/-- The number that a sign and digits stand for. -/
def signedValue (sign : Char) (run : Text) : Int :=
  if sign = '-' then -(value run : Int) else value run

/-- A modifier within the signed 64-bit range. -/
abbrev Modifier := { m : Int // Signed64.Fits m }

/-- No modifier at all. -/
def Modifier.zero : Modifier := ⟨0, by decide⟩

/-- A signed number, if it lies in the signed 64-bit range. -/
def modifier? (text : Text) : Option (Modifier × Text) := do
  let ((sign, run), rest) ← signedDigits? text
  if h : Signed64.Fits (signedValue sign run) then some (⟨signedValue sign run, h⟩, rest) else none

/-! ### Whole notations -/

/-- The longest notation at the start of a text, and what follows it. -/
def recognize? (text : Text) : Option (Text × Text) := do
  let (count, rest) := digits text
  let (letter, rest) ← letter? rest
  let (sides, rest) ← digits? rest
  match signedDigits? rest with
  | some ((sign, run), rest) => some (count ++ letter :: sides ++ sign :: run, rest)
  | none => some (count ++ letter :: sides, rest)

/-- The digits of count and sides, still unchecked, and the modifier. -/
structure Numerals where
  /-- The digits of the count; there may be none. -/
  count : Text
  /-- The digits of the sides. -/
  sides : Text
  /-- The modifier, zero where none is taken. -/
  modifier : Modifier

/-- The notation at the start of a text with its modifier converted, and what
follows it. -/
def read? (text : Text) : Option (Numerals × Text) := do
  let (count, rest) := digits text
  let (_, rest) ← letter? rest
  let (sides, rest) ← digits? rest
  match modifier? rest with
  | some (modifier, rest) => some (⟨count, sides, modifier⟩, rest)
  | none => some (⟨count, sides, Modifier.zero⟩, rest)

/-- Whether a token is a notation from end to end. -/
def isNotation (token : Text) : Bool :=
  match recognize? token with
  | some (_, []) => true
  | _ => false

/-- The words of a text that are notations, in order. -/
def tokens (text : Text) : List Text := (words text).filter isNotation

/-! ### Nothing is lost -/

theorem letter?_eq_some {text rest : Text} {c : Char} (h : letter? text = some (c, rest)) :
    text = c :: rest ∧ (c = 'd' ∨ c = 'D') := by
  cases text with
  | nil => simp [letter?] at h
  | cons d others =>
    simp only [letter?] at h
    split at h
    · simp_all
    · simp at h

theorem digits?_eq_some {text run rest : Text} (h : digits? text = some (run, rest)) :
    text = run ++ rest ∧ run ≠ [] ∧ (∀ c ∈ run, c.isDigit = true) := by
  have hrun : digits text = (run, rest) ∧ run ≠ [] := by
    unfold digits? at h
    split at h
    · simp at h
    · rename_i hne
      refine ⟨Option.some.inj h, fun he => ?_⟩
      have := Option.some.inj h
      subst he
      exact hne rest this
  refine ⟨?_, hrun.2, ?_⟩
  · have := digits_fst_append_snd text
    rw [hrun.1] at this
    exact this.symm
  · intro c hc
    have hd : run = text.takeWhile Char.isDigit := by
      have := congrArg Prod.fst hrun.1
      exact this.symm
    rw [hd] at hc
    exact List.all_eq_true.mp List.all_takeWhile c hc

theorem signedDigits?_eq_some {text run rest : Text} {sign : Char}
    (h : signedDigits? text = some ((sign, run), rest)) :
    text = sign :: run ++ rest ∧ (sign = '+' ∨ sign = '-') ∧ run ≠ [] ∧
      ∀ c ∈ run, c.isDigit = true := by
  simp only [signedDigits?, Option.bind_eq_bind, Option.bind_eq_some_iff] at h
  obtain ⟨⟨s, r⟩, hs, ⟨⟨d, r'⟩, hd, he⟩⟩ := h
  simp only [pure, Option.some.injEq, Prod.mk.injEq] at he
  obtain ⟨⟨rfl, rfl⟩, rfl⟩ := he
  obtain ⟨rfl, hne, hall⟩ := digits?_eq_some hd
  cases text with
  | nil => simp [sign?] at hs
  | cons c others =>
    simp only [sign?] at hs
    split at hs
    · simp_all
    · simp at hs

/-- The notation found and the rest make up the text. -/
theorem recognize?_append_rest {text found rest : Text} (h : recognize? text = some (found, rest)) :
    found ++ rest = text := by
  simp only [recognize?, Option.bind_eq_bind, Option.bind_eq_some_iff] at h
  obtain ⟨⟨c, r⟩, hc, ⟨⟨s, r'⟩, hs, hm⟩⟩ := h
  dsimp only at hs hm
  have hcount := digits_fst_append_snd text
  obtain ⟨hc, -⟩ := letter?_eq_some hc
  obtain ⟨hs, -, -⟩ := digits?_eq_some hs
  rw [← hcount, hc, hs]
  cases hsd : signedDigits? r' with
  | none =>
    simp only [hsd, Option.some.injEq, Prod.mk.injEq] at hm
    obtain ⟨rfl, rfl⟩ := hm
    simp
  | some found' =>
    obtain ⟨⟨sign, run⟩, rest'⟩ := found'
    obtain ⟨hr, -, -, -⟩ := signedDigits?_eq_some hsd
    simp only [hsd, Option.some.injEq, Prod.mk.injEq] at hm
    obtain ⟨rfl, rfl⟩ := hm
    rw [hr]
    simp

theorem tokens_nil : tokens [] = [] := by simp [tokens, words_nil]

end Notation
end DiceTower
