/-
# Tables that can be written

Putting a value in order moves the entries of the tables in it and nothing else,
so it holds a table afterwards if it held one before, and is written behind its
key if it was (`Value.holdsTable_arranged`, `Value.isKeyed_arranged`). So a table
in the order of its keys is written as a file exactly if each of its values can be
written and no entry that is written behind its key follows one that holds a table
(`Table.Orderly`), which is a matter of the keys.

Key definition: `Toml.Table.Orderly`.
Key theorem: `Toml.isSome_write?_iff_orderly`.
-/
import DiceTower.Toml.Order
import DiceTower.Toml.Writer

namespace DiceTower
namespace Toml

/-! ### Values put in order -/

mutual

theorem Value.holdsTable_arranged : ∀ v : Value, v.arranged.holdsTable = v.holdsTable
  | .string _ => rfl
  | .integer _ => rfl
  | .float _ => rfl
  | .boolean _ => rfl
  | .datetime _ => rfl
  | .array items => itemsHoldTable_arranged items
  | .table _ => rfl

theorem itemsHoldTable_arranged :
    ∀ items : List Value, itemsHoldTable (arrangedItems items) = itemsHoldTable items
  | [] => rfl
  | item :: rest => by
    rw [arrangedItems, itemsHoldTable, itemsHoldTable, item.holdsTable_arranged,
      itemsHoldTable_arranged rest]

end

mutual

theorem Value.isKeyed_arranged : ∀ v : Value, v.arranged.isKeyed = v.isKeyed
  | .string _ => rfl
  | .integer _ => rfl
  | .float _ => rfl
  | .boolean _ => rfl
  | .datetime _ => rfl
  | .array items => itemsKeyed_arranged items
  | .table _ => rfl

theorem itemsKeyed_arranged :
    ∀ items : List Value, itemsKeyed (arrangedItems items) = itemsKeyed items
  | [] => rfl
  | item :: _ => item.isKeyed_arranged

end

theorem arrangedEntries_eq : ∀ entries : List (Text × Value),
    arrangedEntries entries = entries.map fun e => (e.1, e.2.arranged)
  | [] => rfl
  | (key, value) :: rest => by rw [arrangedEntries, arrangedEntries_eq rest, List.map_cons]

theorem entriesWritable_eq : ∀ entries : List (Text × Value),
    entriesWritable entries = entries.all fun e => e.2.isWritable
  | [] => rfl
  | (key, value) :: rest => by rw [entriesWritable, entriesWritable_eq rest, List.all_cons]

/-! ### Tables -/

/-- Each value can be written, and no entry that is written behind its key has a
key that comes behind that of one that holds a table. -/
structure Table.Orderly (t : Table) : Prop where
  writable : ∀ key v, t.find? key = some v → v.render? ≠ none
  keysFirst : ∀ name key v w, t.find? name = some v → t.find? key = some w →
    Table.Before name key → v.holdsTable = true → w.isKeyed = false

theorem Value.render?_ne_none_iff {v : Value} : v.render? ≠ none ↔ v.arranged.isWritable = true := by
  rw [render?, text?]
  split <;> simp_all

/-- **A table is written exactly if it is orderly.** -/
theorem isSome_write?_iff_orderly {t : Table} (h : t.Sorted) :
    (write? t).isSome = true ↔ t.Orderly := by
  have hkeys : Table.KeysFirst (arrangedEntries t) ↔ ∀ a ∈ t, ∀ b ∈ t,
      Table.Before a.1 b.1 → a.2.holdsTable = true → b.2.isKeyed = false := by
    rw [arrangedEntries_eq, Table.KeysFirst, List.pairwise_map]
    simp only [Value.holdsTable_arranged, Value.isKeyed_arranged]
    exact Table.pairwise_iff_of_sorted h
  have hvalues : entriesWritable (arrangedEntries t) = true ↔ ∀ e ∈ t, e.2.render? ≠ none := by
    simp only [arrangedEntries_eq, entriesWritable_eq, List.all_map, List.all_eq_true,
      Function.comp_apply, Value.render?_ne_none_iff]
  rw [write?_isSome_iff, hkeys, hvalues]
  constructor
  · rintro ⟨hfirst, hwritable⟩
    refine ⟨?_, ?_⟩
    · intro key v hfind
      exact hwritable _ (Table.mem_of_find? hfind)
    · intro name key v w hname hkey
      exact hfirst _ (Table.mem_of_find? hname) _ (Table.mem_of_find? hkey)
  · rintro ⟨hwritable, hfirst⟩
    refine ⟨?_, ?_⟩
    · intro a ha b hb
      exact hfirst _ _ _ _ (Table.find?_of_mem h ha) (Table.find?_of_mem h hb)
    · intro e he
      exact hwritable _ _ (Table.find?_of_mem h he)

end Toml
end DiceTower
