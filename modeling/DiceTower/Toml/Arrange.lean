/-
# The order in which entries are written

What follows a heading belongs to the table under it, so an entry that is
written behind its key has to stand in front of all headings in its table.
Within a table the plain entries are written first, then the arrays that hold
tables, and then the tables; each group keeps the order of its keys. The
entries of a file as a whole keep their order.

An entry behind its key can not follow one that holds a table, wherever the
table stands in it. A value in which one would have to can not be written:
a file with a plain entry behind a table, or a table with arrays in which
tables stand beside other values or inside further arrays.

Key definitions: `Toml.Value.arranged`, `Toml.Value.holdsTable`,
`Toml.Value.isKeyed`, `Toml.Table.KeysFirst`, `Toml.Value.isWritable`.
Key theorem: `Toml.Value.isKeyed_of_not_holdsTable`.
-/
import DiceTower.Toml.Value

namespace DiceTower
namespace Toml

/-! ### The three groups of entries -/

namespace Value

/-- Whether the value is an array with a table among its items. -/
def isTableArray : Value → Bool
  | array items => items.any isTable
  | _ => false

/-- Whether the value is neither a table nor an array with a table among its items. -/
def isPlain (value : Value) : Bool := !value.isTable && !value.isTableArray

end Value

/-- Plain entries, then arrays that hold tables, then tables. -/
def Table.grouped (entries : Table) : Table :=
  entries.filter (fun e => e.2.isPlain) ++ entries.filter (fun e => e.2.isTableArray) ++
    entries.filter fun e => e.2.isTable

mutual

/-- The value with the entries of every table in it in the order of writing. -/
def Value.arranged : Value → Value
  | .array items => .array (arrangedItems items)
  | .table entries => .table (Table.grouped (arrangedEntries entries))
  | value => value

/-- The items with the entries of every table in them in the order of writing. -/
def arrangedItems : List Value → List Value
  | [] => []
  | item :: rest => item.arranged :: arrangedItems rest

/-- The entries as they stand, their values in the order of writing. -/
def arrangedEntries : List (Text × Value) → List (Text × Value)
  | [] => []
  | (key, value) :: rest => (key, value.arranged) :: arrangedEntries rest

end

/-! ### Values that can be written -/

mutual

/-- Whether the value is a table or holds one. -/
def Value.holdsTable : Value → Bool
  | .array items => itemsHoldTable items
  | .table _ => true
  | _ => false

/-- Whether one of the items is a table or holds one. -/
def itemsHoldTable : List Value → Bool
  | [] => false
  | item :: rest => item.holdsTable || itemsHoldTable rest

end

mutual

/-- Whether the value is written behind its key: all but tables, and arrays
that a table comes first in. -/
def Value.isKeyed : Value → Bool
  | .array items => itemsKeyed items
  | .table _ => false
  | _ => true

/-- Whether the array of the items is written behind its key. -/
def itemsKeyed : List Value → Bool
  | [] => true
  | item :: _ => item.isKeyed

end

/-- No entry behind its key follows one that holds a table. -/
def Table.KeysFirst (entries : Table) : Prop :=
  entries.Pairwise fun a b => a.2.holdsTable = true → b.2.isKeyed = false

instance (entries : Table) : Decidable entries.KeysFirst :=
  inferInstanceAs (Decidable (List.Pairwise _ _))

mutual

/-- Whether the value can be written in the order in which it stands. -/
def Value.isWritable : Value → Bool
  | .array items => itemsWritable items
  | .table entries => decide (Table.KeysFirst entries) && entriesWritable entries
  | _ => true

/-- Whether each item can be written. -/
def itemsWritable : List Value → Bool
  | [] => true
  | item :: rest => item.isWritable && itemsWritable rest

/-- Whether the value of each entry can be written. -/
def entriesWritable : List (Text × Value) → Bool
  | [] => true
  | (_, value) :: rest => value.isWritable && entriesWritable rest

end

/-! ### Values without tables -/

mutual

/-- A value without tables is written behind its key. -/
theorem Value.isKeyed_of_not_holdsTable :
    ∀ {value : Value}, value.holdsTable = false → value.isKeyed = true
  | .string _, _ => rfl
  | .integer _, _ => rfl
  | .float _, _ => rfl
  | .boolean _, _ => rfl
  | .datetime _, _ => rfl
  | .array _, h => itemsKeyed_of_not_holdTable h
  | .table _, h => by simp [Value.holdsTable] at h

theorem itemsKeyed_of_not_holdTable :
    ∀ {items : List Value}, itemsHoldTable items = false → itemsKeyed items = true
  | [], _ => rfl
  | _ :: _, h => by
    simp only [itemsHoldTable, Bool.or_eq_false_iff] at h
    exact Value.isKeyed_of_not_holdsTable h.1

end

end Toml
end DiceTower
