/-
# Where a value stands in a file

A value stands at an entry of a table or at an item of an array, which stands
in a place of its own, up to the file as a whole. The place decides what is
written in front of the value: a plain value stands behind its key or behind
the bracket or comma of its array, and a table stands under a heading with
the keys that lead to it, between double brackets if it is an item of an
array.

A table without plain entries has no heading of its own. A table at an item
of an array can not do without one, so if its first entry is a table the
heading of the item is written in front of that of the entry. A heading
stands behind an empty line unless it belongs to what is written first in the
table around it.

Key definitions: `Toml.Place`, `Toml.Place.headings`, `Toml.Place.opening`,
`Toml.Place.lineEnd`.
-/
import DiceTower.Toml.Quoted

namespace DiceTower
namespace Toml

/-- The innermost step to a place. A step is the first where nothing stands in
front of it in its table or its array. -/
inductive Step where
  /-- The entry of a key. -/
  | entry (key : Text) (first : Bool)
  /-- An item of an array. -/
  | item (first : Bool)
deriving DecidableEq

/-- The steps to a place, the innermost first; no steps lead to the whole. -/
abbrev Place := List Step

namespace Place

/-! ### Headings -/

/-- The key of a step, if it has one. -/
def keyOf? : Step → Option Text
  | .entry key _ => some key
  | .item _ => none

/-- The keys that lead to a place, the outermost first. -/
def path (place : Place) : List Text := (place.filterMap keyOf?).reverse

/-- The empty line in front of a heading. The first item of an array is led by
what stands in front of the array. -/
def gap : Place → Text
  | .entry _ first :: _ => if first then [] else ['\n']
  | .item false :: _ => ['\n']
  | .item true :: .entry _ first :: _ => if first then [] else ['\n']
  | _ => []

/-- The heading of the table at a place. -/
def heading (place : Place) : Text :=
  match place with
  | .item _ :: _ => gap place ++ "[[".toList ++ writePath (path place) ++ "]]\n".toList
  | _ => gap place ++ '[' :: writePath (path place) ++ "]\n".toList

/-- The headings that the first entries of the tables around a place still
lack: those of the items of arrays. -/
def missing : Place → Text
  | .entry _ true :: .item first :: .entry key second :: up =>
    (if first then missing (.entry key second :: up) else []) ++
      heading (.item first :: .entry key second :: up)
  | .entry _ true :: up => missing up
  | _ => []

/-- The heading of the table at a place, behind the headings that are still
lacking. The whole has none. -/
def headings : Place → Text
  | [] => []
  | .item true :: up => missing up ++ heading (.item true :: up)
  | place => missing place ++ heading place

/-! ### Plain values -/

/-- What stands in front of a plain value: its key, behind the headings of the
table if the entry is the first of it, and the brackets and commas of arrays. -/
def opening : Place → Text
  | [] => []
  | .entry key first :: up => (if first then headings up else []) ++ writeKey key ++ " = ".toList
  | .item first :: up => if first then opening up ++ ['['] else ", ".toList

/-- What stands behind a plain value: the end of the line if it stands at an entry. -/
def lineEnd : Place → Text
  | .entry _ _ :: _ => ['\n']
  | _ => []

/-- A plain value with what stands around it. -/
def plain (place : Place) (text : Text) : Text := opening place ++ text ++ lineEnd place

end Place
end Toml
end DiceTower
