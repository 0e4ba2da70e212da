/-
# Writing settings files

The entries of a table are written one after another, each in its place: a
plain value behind its key on a line of its own, an array between brackets,
and a table under its heading. An array that a table comes first in has no
brackets, and each of its tables has a heading.

A value is put in order before it is written. A file keeps its order, and so
can not be written if a plain entry would follow a table.

Key definitions: `Toml.Value.renderAt`, `Toml.Value.render?`, `Toml.write?`.
Key theorems: `Toml.write?_isSome_iff`, `Toml.renderEntries_cons`.
-/
import DiceTower.Toml.Arrange
import DiceTower.Toml.Place

namespace DiceTower
namespace Toml

open Text

/-! ### Values in their places -/

/-- The word for a truth value. -/
def writeBoolean (b : Bool) : Text := if b then "true".toList else "false".toList

/-- What stands behind the items of an array: the closing bracket, unless a
table comes first. An array without items is written as a whole. -/
def arrayEnd (place : Place) : List Value → Text
  | [] => place.plain "[]".toList
  | item :: _ => if item.isTable then [] else ']' :: place.lineEnd

mutual

/-- The text of a value in its place, in the order in which it stands. -/
def Value.renderAt (place : Place) : Value → Text
  | .string text => place.plain (quote text)
  | .integer n => place.plain (ofInt n)
  | .float x => place.plain x.render
  | .boolean b => place.plain (writeBoolean b)
  | .datetime d => place.plain d.render
  | .array items => renderItems place true items ++ arrayEnd place items
  | .table entries => renderEntries place true entries

/-- The texts of the items of the array in a place. -/
def renderItems (place : Place) (first : Bool) : List Value → Text
  | [] => []
  | item :: rest => item.renderAt (.item first :: place) ++ renderItems place false rest

/-- The texts of the entries of the table in a place; a table without entries
is its heading. -/
def renderEntries (place : Place) (first : Bool) : List (Text × Value) → Text
  | [] => if first then place.headings else []
  | (key, value) :: rest =>
    value.renderAt (.entry key first :: place) ++ renderEntries place false rest

end

/-! ### Whole texts -/

/-- The text of a value in the order in which it stands, if it can be written. -/
def Value.text? (value : Value) : Option Text :=
  if value.isWritable then some (value.renderAt []) else none

/-- The text of a value, if it can be written. -/
def Value.render? (value : Value) : Option Text := value.arranged.text?

/-- The text of a file, if the table can be written. -/
def write? (t : Table) : Option Text := (Value.table (arrangedEntries t)).text?

/-- A file is written exactly if no entry behind its key follows one that holds
a table, and every value can be written. -/
theorem write?_isSome_iff (t : Table) :
    (write? t).isSome = true ↔
      Table.KeysFirst (arrangedEntries t) ∧ entriesWritable (arrangedEntries t) = true := by
  simp [write?, Value.text?, Value.isWritable, Option.isSome_ite]

/-- An entry is written in front of those behind it, none of which is the first. -/
theorem renderEntries_cons (place : Place) (first : Bool) (key : Text) (value : Value)
    (rest : Table) :
    renderEntries place first ((key, value) :: rest) =
      value.renderAt (.entry key first :: place) ++ renderEntries place false rest := rfl

end Toml
end DiceTower
