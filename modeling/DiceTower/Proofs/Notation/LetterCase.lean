/-
# Notations in either case

The letter is the only piece of a notation that has a case, and its case has
no say: of a text in lower case the same pieces are taken off, with the letter
in lower case (`Notation.pieces?_lower`). So its tokens are those of the text,
in lower case, and each is parsed to the same expression or refused for the
same reason; only the token that the expression or the error keeps is in lower
case (`Expression.parse_lower`).

Key definitions: `Notation.Pieces.lower`, `Expression.lower`,
`DiceError.lower`, `lowerOutcome`.
Key theorems: `Notation.pieces?_lower`, `Notation.tokens_lower`,
`Expression.parse_lower`, `Expression.parseAll_lower`.
-/
import DiceTower.Proofs.Notation.Tokens
import DiceTower.Proofs.Text.LetterCase

namespace DiceTower

open Text

namespace Notation

/-! ### Pieces -/

/-- The pieces with the letter in lower case. -/
def Pieces.lower (p : Pieces) : Pieces := { p with letter := p.letter.toLower }

theorem toLower_eq_self_of_isDigit {c : Char} (h : c.isDigit = true) : c.toLower = c := by
  have hdigit : ∀ n < 91, (Char.ofNat n).isDigit = true → (Char.ofNat n).toLower = Char.ofNat n := by
    decide
  by_cases hc : 90 < c.toNat
  · exact toLower_eq_self_of_lt hc
  · have hn := hdigit c.toNat (by omega)
    rw [Char.ofNat_toNat] at hn
    exact hn h

theorem lower_of_digits {run : Text} (h : ∀ c ∈ run, c.isDigit = true) : Text.lower run = run := by
  have hmap : run.map Char.toLower = run.map id :=
    List.map_congr_left fun c hc => toLower_eq_self_of_isDigit (h c hc)
  rwa [List.map_id] at hmap

theorem digits_lower (text : Text) :
    digits (Text.lower text) = ((digits text).1, Text.lower (digits text).2) := by
  have hrun : Text.lower (text.takeWhile Char.isDigit) = text.takeWhile Char.isDigit :=
    lower_of_digits fun c hc => List.all_eq_true.mp List.all_takeWhile c hc
  unfold digits
  rw [takeWhile_lower isDigit_toLower, dropWhile_lower isDigit_toLower, hrun]

theorem digits?_lower (text : Text) : digits? (Text.lower text) =
    (digits? text).map fun found => (found.1, Text.lower found.2) := by
  unfold digits?
  rw [digits_lower]
  cases digits text with
  | mk run rest =>
    cases run <;> rfl

theorem toLower_letter_iff (c : Char) :
    (c.toLower = 'd' ∨ c.toLower = 'D') ↔ (c = 'd' ∨ c = 'D') := by
  have h : decide (c.toLower = 'd' ∨ c.toLower = 'D') = decide (c = 'd' ∨ c = 'D') :=
    apply_toLower (f := fun c => decide (c = 'd' ∨ c = 'D')) (by decide) c
  exact decide_eq_decide.mp h

theorem letter?_lower (text : Text) : letter? (Text.lower text) =
    (letter? text).map fun found => (found.1.toLower, Text.lower found.2) := by
  cases text with
  | nil => rfl
  | cons c rest =>
    rw [lower_cons, letter?, letter?]
    by_cases hc : c = 'd' ∨ c = 'D'
    · rw [if_pos hc, if_pos ((toLower_letter_iff c).mpr hc)]
      rfl
    · rw [if_neg hc, if_neg fun h => hc ((toLower_letter_iff c).mp h)]
      rfl

theorem sign?_lower (text : Text) : sign? (Text.lower text) =
    (sign? text).map fun found => (found.1, Text.lower found.2) := by
  cases text with
  | nil => rfl
  | cons c rest =>
    have hsign : (c.toLower = '+' ∨ c.toLower = '-') ↔ (c = '+' ∨ c = '-') :=
      or_congr (toLower_eq_iff (by decide) (by decide)) (toLower_eq_iff (by decide) (by decide))
    rw [lower_cons, sign?, sign?]
    by_cases hc : c = '+' ∨ c = '-'
    · have hlower : c.toLower = c := by
        rcases hc with rfl | rfl <;> decide
      rw [if_pos hc, if_pos (hsign.mpr hc), hlower]
      rfl
    · rw [if_neg hc, if_neg fun h => hc (hsign.mp h)]
      rfl

theorem signedDigits?_lower (text : Text) : signedDigits? (Text.lower text) =
    (signedDigits? text).map fun found => (found.1, Text.lower found.2) := by
  simp only [signedDigits?, sign?_lower, Option.bind_eq_bind]
  cases sign? text with
  | none => rfl
  | some found =>
    simp only [Option.map_some, Option.bind_some, digits?_lower]
    cases digits? found.2 <;> rfl

/-- **The case of the letter has no say.** -/
theorem pieces?_lower (text : Text) : pieces? (Text.lower text) =
    (pieces? text).map fun found => (found.1.lower, Text.lower found.2) := by
  simp only [pieces?, digits_lower, letter?_lower, Option.bind_eq_bind]
  cases letter? (digits text).2 with
  | none => rfl
  | some found =>
    simp only [Option.map_some, Option.bind_some, digits?_lower]
    cases digits? found.2 with
    | none => rfl
    | some found =>
      simp only [Option.map_some, Option.bind_some, signedDigits?_lower]
      cases signedDigits? found.2 <;> rfl

/-! ### Tokens -/

theorem isNotation_lower (token : Text) : isNotation (Text.lower token) = isNotation token := by
  unfold isNotation
  rw [recognize?_eq_pieces?, recognize?_eq_pieces?, pieces?_lower]
  cases pieces? token with
  | none => rfl
  | some found =>
    obtain ⟨p, rest⟩ := found
    cases rest <;> rfl

theorem tokens_lower (text : Text) : tokens (Text.lower text) = (tokens text).map Text.lower := by
  have hcomp : isNotation ∘ Text.lower = isNotation := funext isNotation_lower
  unfold tokens
  rw [words_lower, List.filter_map, hcomp]

/-- Nothing in a modifier has a case. -/
theorem Pieces.Valid.lower_signedText {p : Pieces} (hp : p.Valid) :
    Text.lower p.signedText = p.signedText := by
  unfold Pieces.signedText
  cases hs : p.signed with
  | none => rfl
  | some signed =>
    obtain ⟨sign, run⟩ := signed
    obtain ⟨hsign, -, hrun⟩ := hp.2.2.2 sign run hs
    have hlower : sign.toLower = sign := by
      rcases hsign with rfl | rfl <;> decide
    show Text.lower (sign :: run) = sign :: run
    rw [lower_cons, hlower, lower_of_digits hrun]

theorem read?_lower (text : Text) : read? (Text.lower text) =
    (read? text).map fun found => (found.1, Text.lower found.2) := by
  rw [read?_eq_pieces?, read?_eq_pieces?, pieces?_lower]
  cases hp : pieces? text with
  | none => rfl
  | some found =>
    obtain ⟨p, rest⟩ := found
    obtain ⟨hvalid, -, -⟩ := pieces?_eq_some_iff.mp hp
    have hmodifier : p.lower.modifier = p.modifier := rfl
    simp only [Option.map_some]
    by_cases hfit : Signed64.Fits p.modifier
    · rw [Pieces.numerals_of_fits hfit, Pieces.numerals_of_fits (p := p.lower) hfit]
      rfl
    · rw [Pieces.numerals_of_not_fits hfit, Pieces.numerals_of_not_fits (p := p.lower) hfit,
        lower_append, hvalid.lower_signedText]
      rfl

end Notation

/-! ### Expressions -/

/-- The expression as it would be written in lower case. -/
def Expression.lower (e : Expression) : Expression := { e with written := Text.lower e.written }

/-- The error about the token in lower case. -/
def DiceError.lower : DiceError → DiceError
  | invalidNotation token => invalidNotation (Text.lower token)
  | countOutOfRange token count => countOutOfRange (Text.lower token) count
  | sidesOutOfRange token sides => sidesOutOfRange (Text.lower token) sides

/-- The player is told the same. -/
theorem DiceError.message_lower (e : DiceError) : e.lower.message = e.message := by
  cases e <;> rfl

/-- What a request comes to, in lower case. -/
def lowerOutcome {α : Type} (f : α → α) : Except DiceError α → Except DiceError α
  | .ok a => .ok (f a)
  | .error e => .error e.lower

namespace Expression

open Notation

/-- **A token is parsed alike in lower case.** -/
theorem parse_lower (token : Text) :
    parse (Text.lower token) = lowerOutcome Expression.lower (parse token) := by
  by_cases hr : ∃ numerals, read? token = some (numerals, [])
  · obtain ⟨numerals, hr⟩ := hr
    have hlower : read? (Text.lower token) = some (numerals, []) := by
      rw [read?_lower, hr]
      rfl
    simp only [parse, hr, hlower]
    cases readCount numerals.count with
    | error n => rfl
    | ok count => cases readSides numerals.sides <;> rfl
  · have hnone : ∀ numerals, read? token ≠ some (numerals, []) := fun numerals h => hr ⟨numerals, h⟩
    have hlower : ∀ numerals, read? (Text.lower token) ≠ some (numerals, []) := by
      intro numerals h
      rw [read?_lower] at h
      obtain ⟨⟨found, rest⟩, hread, heq⟩ := Option.map_eq_some_iff.mp h
      have hrest : rest = [] := lower_eq_nil_iff.mp (congrArg Prod.snd heq)
      exact hnone found (by rw [hread, hrest])
    rw [parse_of_not_read hlower, parse_of_not_read hnone]
    rfl

theorem parseAll_lower : ∀ tokens : List Text, parseAll (tokens.map Text.lower) =
    lowerOutcome (List.map Expression.lower) (parseAll tokens)
  | [] => rfl
  | token :: rest => by
    rw [List.map_cons, parseAll, parseAll, parse_lower, parseAll_lower rest]
    cases parse token with
    | error e => rfl
    | ok e => cases parseAll rest <;> rfl

end Expression
end DiceTower
