/-
# Rolls as JSON

An expression is the string it was written as, and only a string that parses
is read as one. Policies and criticals are read by their names, either as a
string or as an object with the name as its only key and a null value. Rolls
are written as objects that carry their kind.

Key definitions: `Expression.toJson`, `Expression.ofJson`,
`Expression.ofJsonText`, `Policy.ofJson`, `Critical.ofJson`, `Roll.toJson`.
Key theorem: `Expression.ofJson_toJson`.
-/
import DiceTower.Dice.Parse
import DiceTower.Json.Basic
import DiceTower.Roll.Basic

namespace DiceTower

/-- Why a JSON value does not stand for what is read. -/
inductive DecodeError where
  /-- The value is of no form that is read. -/
  | wrongForm
  /-- The string is no dice expression. -/
  | badExpression (error : DiceError)
  /-- The string is none of the known names. -/
  | unknownVariant (given : Text) (known : List Text)

namespace DecodeError

/-- A name between backticks. -/
def ticked (name : Text) : Text := '\x60' :: name ++ ['\x60']

/-- Names between backticks, with the word between them. -/
def alternatives : List Text → Text
  | [] => []
  | [name] => ticked name
  | name :: rest => ticked name ++ " or ".toList ++ alternatives rest

/-- What is said about a string that is refused. -/
def message? : DecodeError → Option Text
  | wrongForm => none
  | badExpression error => some error.message
  | unknownVariant given known =>
    some ("unknown variant ".toList ++ ticked given ++ ", expected ".toList ++ alternatives known)

end DecodeError

/-! ### Expressions -/

namespace Expression

/-- An expression is the string it was written as. -/
def toJson (e : Expression) : Json := .string e.written

/-- The expression that a JSON value stands for. -/
def ofJson : Json → Except DecodeError Expression
  | .string text =>
    match parse text with
    | .ok e => .ok e
    | .error error => .error (.badExpression error)
  | _ => .error .wrongForm

/-- The expression that a JSON text stands for: a string, with blanks around it or without. -/
def ofJsonText (text : Text) : Except DecodeError Expression :=
  match Text.skipBlanks text with
  | '"' :: rest =>
    match Json.Quoted.decode? rest with
    | some (given, behind) =>
      if Text.skipBlanks behind = [] then ofJson (.string given) else .error .wrongForm
    | none => .error .wrongForm
  | _ => .error .wrongForm

/-- A parsed expression is read back from its JSON form. -/
theorem ofJson_toJson {token : Text} {e : Expression} (h : parse token = .ok e) :
    ofJson e.toJson = .ok e := by
  simp [toJson, ofJson, written_parse h, h]

end Expression

/-! ### Names -/

/-- The named value that a JSON value stands for. -/
def ofJsonName {α : Type} (named : List (Text × α)) : Json → Except DecodeError α
  | .string given =>
    match named.lookup given with
    | some a => .ok a
    | none => .error (.unknownVariant given (named.map Prod.fst))
  | .object [(given, .null)] =>
    match named.lookup given with
    | some a => .ok a
    | none => .error .wrongForm
  | _ => .error .wrongForm

namespace Policy

/-- The policies with their names. -/
def all : List (Text × Policy) :=
  [(advantage.name, advantage), (disadvantage.name, disadvantage)]

/-- A policy is the string of its name. -/
def toJson (p : Policy) : Json := .string p.name

/-- The policy that a JSON value stands for. -/
def ofJson (value : Json) : Except DecodeError Policy := ofJsonName all value

theorem ofJson_toJson (p : Policy) : ofJson p.toJson = .ok p := by cases p <;> rfl

end Policy

namespace Critical

/-- The criticals with their names. -/
def all : List (Text × Critical) := [(success.name, success), (failure.name, failure)]

/-- A critical is the string of its name. -/
def toJson (c : Critical) : Json := .string c.name

/-- The critical that a JSON value stands for. -/
def ofJson (value : Json) : Except DecodeError Critical := ofJsonName all value

theorem ofJson_toJson (c : Critical) : ofJson c.toJson = .ok c := by cases c <;> rfl

end Critical

/-! ### Rolls -/

/-- The members of a result: its expression, its faces and its two sums. -/
def Result.toJsonMembers (r : Result) : List (Text × Json) :=
  [("expression".toList, r.expression.toJson), ("rolls".toList, .array (r.faces.map Json.ofNat)),
    ("total".toList, Json.ofInt r.total), ("natural".toList, Json.ofNat r.natural)]

/-- A result as an object. -/
def Result.toJson (r : Result) : Json := .object r.toJsonMembers

/-- A roll as an object that carries its kind. -/
def Roll.toJson : Roll → Json
  | .simple result => .object (("kind".toList, .string "simple".toList) :: result.toJsonMembers)
  | .kept pair =>
    .object [("kind".toList, .string "advantage".toList), ("chosen".toList, pair.chosen.toJson),
      ("other".toList, pair.other.toJson), ("policy".toList, pair.policy.toJson)]
  | .batch b =>
    .object [("kind".toList, .string "batch".toList),
      ("results".toList, .array (b.results.map Result.toJson)),
      ("grand_total".toList, Json.ofInt b.grandTotal)]

end DiceTower
