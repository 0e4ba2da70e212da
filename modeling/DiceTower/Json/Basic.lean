/-
# JSON values and their compact text

The compact text of a value has no space between its tokens and keeps the
members of an object in the order in which they are given. A number is a
whole number and a count of decimal places.

Key definitions: `Json`, `Json.compact`.
-/
import DiceTower.Text.Digits
import DiceTower.Json.Quoted

namespace DiceTower

open Text

/-- A JSON value. -/
inductive Json where
  | null
  | boolean (b : Bool)
  /-- The whole number divided by ten as often as there are places. -/
  | number (whole : Int) (places : Nat)
  | string (text : Text)
  | array (items : List Json)
  | object (members : List (Text × Json))
deriving Inhabited

namespace Json

/-- A natural number as a value. -/
def ofNat (n : Nat) : Json := number n 0

/-- An integer as a value. -/
def ofInt (n : Int) : Json := number n 0

/-- A text, or the null value. -/
def ofText? : Option Text → Json
  | none => null
  | some text => string text

/-- The text of a number. -/
def compactNumber (whole : Int) (places : Nat) : Text :=
  if places = 0 then Text.ofInt whole
  else Text.ofInt whole ++ 'e' :: '-' :: Text.ofNat places

mutual

/-- The compact text of a value. -/
def compact : Json → Text
  | null => "null".toList
  | boolean true => "true".toList
  | boolean false => "false".toList
  | number whole places => compactNumber whole places
  | string text => Quoted.quote text
  | array items => '[' :: compactItems items ++ [']']
  | object members => '\x7b' :: compactMembers members ++ ['\x7d']

/-- The texts of items, with commas between them. -/
def compactItems : List Json → Text
  | [] => []
  | [item] => compact item
  | item :: rest => compact item ++ ',' :: compactItems rest

/-- The texts of members, with commas between them. -/
def compactMembers : List (Text × Json) → Text
  | [] => []
  | [(key, value)] => Quoted.quote key ++ ':' :: compact value
  | (key, value) :: rest => Quoted.quote key ++ ':' :: compact value ++ ',' :: compactMembers rest

end

end Json
end DiceTower
