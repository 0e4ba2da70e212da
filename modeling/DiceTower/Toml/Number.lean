/-
# Numbers in settings files

A number is written in decimal. Single underscores may stand between digits,
and the whole part has no leading zero. A fraction or an exponent makes it a
floating-point number; without either it is an integer of the signed 64-bit
range. A plus sign may stand in front of everything else.

Key definitions: `Toml.digitGroup?`, `Toml.exponent?`, `Toml.number?`.
-/
import DiceTower.Toml.Value

namespace DiceTower
namespace Toml

open Text

/-- Digits and underscores. -/
def isDigitOrUnderscore (c : Char) : Bool := c.isDigit || c == '_'

/-- The digits of a run in which underscores stand only between digits, and
what follows the run. -/
def digitGroup? (text : Text) : Option (Text × Text) :=
  let run := text.takeWhile isDigitOrUnderscore
  if (run.splitOnP (· == '_')).all (fun piece => !piece.isEmpty) then
    some (run.filter Char.isDigit, text.dropWhile isDigitOrUnderscore)
  else none

/-- No zero stands in front of another digit. -/
def NoLeadingZero (run : Text) : Prop := run.head? = some '0' → run = ['0']

instance (run : Text) : Decidable (NoLeadingZero run) := inferInstanceAs (Decidable (_ → _))

/-- A number with its sign. -/
def withSign (negative : Bool) (n : Nat) : Int := if negative then -(n : Int) else n

/-- The digits of an exponent, which end the text. -/
def exponentDigits? (negative : Bool) (text : Text) : Option Int :=
  match digitGroup? text with
  | some (run, []) => some (withSign negative (value run))
  | _ => none

/-- The exponent of ten behind a number, zero where there is none. -/
def exponent? : Text → Option Int
  | [] => some 0
  | mark :: rest =>
    if mark = 'e' ∨ mark = 'E' then
      match rest with
      | '+' :: rest => exponentDigits? false rest
      | '-' :: rest => exponentDigits? true rest
      | rest => exponentDigits? false rest
    else none

/-- The floating-point number of a whole part, a fraction and an exponent. -/
def decimal? (negative : Bool) (whole fraction : Text) (exponent : Int) : Option Value :=
  (Binary64.ofDecimal? negative (value (whole ++ fraction)) (exponent - fraction.length)).map
    Value.float

/-- The integer of a whole part, if it lies in the signed 64-bit range. -/
def whole? (negative : Bool) (whole : Text) : Option Value :=
  if Signed64.Fits (withSign negative (value whole)) then
    some (.integer (withSign negative (value whole)))
  else none

/-- The number behind a sign. -/
def unsigned? (negative : Bool) (text : Text) : Option Value :=
  if text = "inf".toList then some (.float (.infinite negative))
  else if text = "nan".toList then some (.float (.nan negative))
  else
    match digitGroup? text with
    | none => none
    | some (whole, rest) =>
      if NoLeadingZero whole then
        match rest with
        | [] => whole? negative whole
        | '.' :: rest =>
          match digitGroup? rest with
          | none => none
          | some (fraction, rest) =>
            match exponent? rest with
            | none => none
            | some exponent => decimal? negative whole fraction exponent
        | rest =>
          match exponent? rest with
          | none => none
          | some exponent => decimal? negative whole [] exponent
      else none

/-- The number that may have a minus sign. -/
def signed? : Text → Option Value
  | '-' :: rest => unsigned? true rest
  | text => unsigned? false text

/-- The number that a word stands for. -/
def number? : Text → Option Value
  | '+' :: rest => signed? rest
  | text => signed? text

end Toml
end DiceTower
