/-
# Plain settings files

A settings file is plain if each entry of it is a value without tables or a
section, and the entries of its sections are values without tables. Dates and
times have no place in it, and its numbers are in range. An entry that is
inserted into a plain file leaves it plain.

Key definitions: `Toml.Value.Inline`, `Toml.IsSection`, `Toml.IsEntry`,
`Toml.IsFile`.
Key theorems: `Toml.IsSection.insert`, `Toml.IsFile.insert`.
-/
import DiceTower.Toml.Order

namespace DiceTower
namespace Toml

/-- The value holds no table and no date or time, and its numbers are in range. -/
inductive Value.Inline : Value → Prop
  | string (text : Text) : Inline (.string text)
  | integer {n : Int} (h : Signed64.Fits n) : Inline (.integer n)
  | float {x : Binary64} (h : x.InRange) : Inline (.float x)
  | boolean (b : Bool) : Inline (.boolean b)
  | array {items : List Value} (h : ∀ item ∈ items, Inline item) : Inline (.array items)

/-- The entries are those of a section: in order, and without tables. -/
structure IsSection (entries : Table) : Prop where
  sorted : Table.Sorted entries
  inline : ∀ e ∈ entries, e.2.Inline

/-- The value may stand in a plain file: a value without tables, or a section. -/
def IsEntry (v : Value) : Prop := v.Inline ∨ ∃ entries, v = .table entries ∧ IsSection entries

/-- The table is that of a plain file: its entries are in order, and each is a
value without tables or a section. -/
structure IsFile (t : Table) : Prop where
  sorted : Table.Sorted t
  isEntry : ∀ e ∈ t, IsEntry e.2

variable {key : Text} {v : Value}

theorem isSection_nil : IsSection [] := ⟨List.Pairwise.nil, by simp⟩

theorem isFile_nil : IsFile [] := ⟨List.Pairwise.nil, by simp⟩

theorem IsSection.insert {entries : Table} (h : IsSection entries) (hv : v.Inline) :
    IsSection (entries.insert key v) := by
  refine ⟨Table.sorted_insert h.sorted, ?_⟩
  intro e he
  rcases Table.mem_insert he with rfl | he
  · exact hv
  · exact h.inline e he

theorem IsFile.insert {t : Table} (h : IsFile t) (hv : IsEntry v) : IsFile (t.insert key v) := by
  refine ⟨Table.sorted_insert h.sorted, ?_⟩
  intro e he
  rcases Table.mem_insert he with rfl | he
  · exact hv
  · exact h.isEntry e he

end Toml
end DiceTower
