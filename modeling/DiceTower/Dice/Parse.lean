/-
# From notation to expression

A token is parsed as a whole. It is refused as a notation before any number
is looked at, then for its count, then for its sides; the refusal names the
token and, for a number out of range, the number itself where it fits 32
bits. A string, or a slice of one, is read as the token it holds, and an
expression is shown as the string it was read from.

Key definitions: `DiceError`, `DiceError.message`, `Expression.parse`,
`Expression.ofSlice`, `Expression.ofString`, `Expression.toString`,
`Expression.parseAll`.
Key theorem: `Expression.written_parse`.
-/
import DiceTower.Dice.Notation
import DiceTower.Dice.Expression

namespace DiceTower

open Text

/-- Why a token is no dice expression. -/
inductive DiceError where
  /-- The token is no notation, or its modifier leaves the signed 64-bit range. -/
  | invalidNotation (token : Text)
  /-- The count is out of range; the value is absent if it does not fit 32 bits. -/
  | countOutOfRange (token : Text) (count : Option Nat)
  /-- The sides are out of range; the value is absent if it does not fit 32 bits. -/
  | sidesOutOfRange (token : Text) (sides : Option Nat)
deriving DecidableEq

namespace DiceError

/-- The token that was refused. -/
def token : DiceError → Text
  | invalidNotation token => token
  | countOutOfRange token _ => token
  | sidesOutOfRange token _ => token

/-- The least and the greatest value that would have been accepted. -/
def bounds? : DiceError → Option (Nat × Nat)
  | invalidNotation _ => none
  | countOutOfRange _ _ => some (minCount, maxCount)
  | sidesOutOfRange _ _ => some (minSides, maxSides)

/-- What the player is told. -/
def message : DiceError → Text
  | invalidNotation _ => "Invalid dice notation. Use format: XdY+Z (e.g., 2d6+3)".toList
  | countOutOfRange _ _ =>
    "Number of dice must be between ".toList ++ ofNat minCount ++ " and ".toList ++ ofNat maxCount
  | sidesOutOfRange _ _ =>
    "Dice sides must be between ".toList ++ ofNat minSides ++ " and ".toList ++ ofNat maxSides

end DiceError

namespace Expression

/-- The number that digits stand for, if it lies between the two bounds; else
the number, if it fits 32 bits. -/
def bounded (least greatest : Nat) (run : Text) :
    Except (Option Nat) { n : Nat // least ≤ n ∧ n ≤ greatest } :=
  if h : least ≤ value run ∧ value run ≤ greatest then .ok ⟨value run, h⟩
  else .error (if value run < 4294967296 then some (value run) else none)

/-- The count that digits stand for; no digits stand for one die. -/
def readCount (run : Text) : Except (Option Nat) { n : Nat // minCount ≤ n ∧ n ≤ maxCount } :=
  if run = [] then .ok ⟨1, by decide⟩ else bounded minCount maxCount run

/-- The sides that digits stand for. -/
def readSides (run : Text) : Except (Option Nat) { n : Nat // minSides ≤ n ∧ n ≤ maxSides } :=
  bounded minSides maxSides run

/-- The expression that a token stands for. -/
def parse (token : Text) : Except DiceError Expression :=
  match Notation.read? token with
  | some (numerals, []) =>
    match readCount numerals.count with
    | .error value => .error (.countOutOfRange token value)
    | .ok count =>
      match readSides numerals.sides with
      | .error value => .error (.sidesOutOfRange token value)
      | .ok sides =>
        .ok {
          count := count
          sides := sides
          modifier := numerals.modifier
          written := token
          count_mem := count.2
          sides_mem := sides.2
          modifier_fits := numerals.modifier.2 }
  | _ => .error (.invalidNotation token)

/-- The expression that a slice of a string stands for. -/
def ofSlice (s : String.Slice) : Except DiceError Expression := parse s.copy.toList

/-- The expression that a string stands for. -/
def ofString (s : String) : Except DiceError Expression := parse s.toList

/-- An expression is shown as it was written. -/
def toString (e : Expression) : String := String.ofList e.written

/-- The expressions of all tokens, or the error of the first that has none. -/
def parseAll : List Text → Except DiceError (List Expression)
  | [] => .ok []
  | token :: rest =>
    match parse token with
    | .error e => .error e
    | .ok expression =>
      match parseAll rest with
      | .error e => .error e
      | .ok expressions => .ok (expression :: expressions)

/-- An expression keeps the token it was parsed from. -/
theorem written_parse {token : Text} {e : Expression} (h : parse token = .ok e) :
    e.written = token := by
  unfold parse at h
  split at h
  · split at h
    · simp at h
    · split at h
      · simp at h
      · cases h
        rfl
  · simp at h

end Expression

/-- Every error names the token that was parsed. -/
theorem DiceError.token_of_parse {token : Text} {e : DiceError}
    (h : Expression.parse token = .error e) : e.token = token := by
  unfold Expression.parse at h
  split at h
  · split at h
    · cases h; rfl
    · split at h
      · cases h; rfl
      · simp at h
  · cases h; rfl

end DiceTower
