/-
# Values of a settings file

A value is a string, an integer, a floating-point number, a boolean, a date
and time, an array or a table. The entries of a table stand in the order of
their keys, compared by code points, which is also the order of their UTF-8
octets; each key has one value.

Key definitions: `Toml.Value`, `Toml.Table`, `Toml.Table.find?`,
`Toml.Table.insert`, `Toml.Table.Sorted`.
Key theorems: `Toml.Table.find?_insert_self`, `Toml.Table.find?_insert_ne`.
-/
import DiceTower.Number.Binary64
import DiceTower.Number.Signed64
import DiceTower.Toml.Datetime

namespace DiceTower
namespace Toml

/-- A value of a settings file. -/
inductive Value where
  | string (text : Text)
  | integer (n : Int)
  | float (x : Binary64)
  | boolean (b : Bool)
  | datetime (d : Datetime)
  | array (items : List Value)
  | table (entries : List (Text × Value))

/-- The entries of a table, in the order of their keys. -/
abbrev Table := List (Text × Value)

namespace Value

/-- The text of a string value. -/
def string? : Value → Option Text
  | string text => some text
  | _ => none

/-- The items of an array value. -/
def array? : Value → Option (List Value)
  | array items => some items
  | _ => none

/-- Whether the value is a table. -/
def isTable : Value → Bool
  | table _ => true
  | _ => false

end Value

namespace Table

/-! ### The order of keys -/

/-- The key comes before another by code points. -/
def Before : Text → Text → Prop
  | [], [] => False
  | [], _ :: _ => True
  | _ :: _, [] => False
  | a :: s, b :: t => a.toNat < b.toNat ∨ a = b ∧ Before s t

instance instDecidableBefore : (s t : Text) → Decidable (Before s t)
  | [], [] => inferInstanceAs (Decidable False)
  | [], _ :: _ => inferInstanceAs (Decidable True)
  | _ :: _, [] => inferInstanceAs (Decidable False)
  | a :: s, b :: t =>
    have := instDecidableBefore s t
    inferInstanceAs (Decidable (a.toNat < b.toNat ∨ a = b ∧ Before s t))

/-- The keys of the entries come one before the other. -/
def Sorted (t : Table) : Prop := t.Pairwise fun a b => Before a.1 b.1

theorem not_before_self (s : Text) : ¬Before s s := by
  induction s with
  | nil => simp [Before]
  | cons a s ih => simp [Before, ih]

/-! ### Looking up and inserting -/

/-- The value of a key. -/
def find? (key : Text) : Table → Option Value
  | [] => none
  | (k, v) :: rest => if k = key then some v else find? key rest

/-- The table in which the key has the given value, and every other key the
value it had. -/
def insert (key : Text) (value : Value) : Table → Table
  | [] => [(key, value)]
  | (k, v) :: rest =>
    if k = key then (key, value) :: rest
    else if Before key k then (key, value) :: (k, v) :: rest
    else (k, v) :: insert key value rest

/-- The table of entries in any order; of two with one key the later counts. -/
def ofEntries (entries : List (Text × Value)) : Table :=
  entries.foldl (fun t entry => insert entry.1 entry.2 t) []

theorem find?_insert_self (key : Text) (value : Value) (t : Table) :
    find? key (insert key value t) = some value := by
  induction t with
  | nil => simp [insert, find?]
  | cons entry rest ih =>
    obtain ⟨k, v⟩ := entry
    simp only [insert]
    split
    · simp [find?]
    · rename_i hk
      split
      · simp [find?]
      · simp [find?, hk, ih]

theorem find?_insert_ne {key other : Text} (h : other ≠ key) (value : Value) (t : Table) :
    find? other (insert key value t) = find? other t := by
  induction t with
  | nil => simp [insert, find?, h.symm]
  | cons entry rest ih =>
    obtain ⟨k, v⟩ := entry
    simp only [insert]
    split
    · rename_i hk
      subst hk
      simp [find?, h.symm]
    · split
      · simp [find?, h.symm]
      · simp [find?, ih]

end Table
end Toml
end DiceTower
