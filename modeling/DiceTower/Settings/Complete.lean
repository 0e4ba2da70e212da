/-
# Settings of a table

Each of the four settings is read from its entry. An entry that is missing or
unusable is replaced by the default in the table, with a notice; every other
entry stays as it is. Items of the roll prefixes that are no usable prefix
are passed over with a notice each and stay in the table.

Key definitions: `Settings.Completed`, `Settings.complete`.
Key theorem: `Settings.find?_complete_of_other`.
-/
import DiceTower.Settings.Basic
import DiceTower.Settings.Notice

namespace DiceTower
namespace Settings

open Toml

/-! ### Keys and usable entries -/

/-- The key of the command prefix. -/
def commandPrefixKey : Text := "command_prefix".toList

/-- The key of the roll prefixes. -/
def rollPrefixesKey : Text := "roll_prefixes".toList

/-- The key of the seconds after which the dealer's key is renewed. -/
def reseedKey : Text := "rng_reseed_s".toList

/-- The key of the output format. -/
def outputKey : Text := "output".toList

/-- The prefix that a value stands for. -/
def prefixOf? (value : Value) : Option Text :=
  match value with
  | .string text => if IsUsablePrefix text then some text else none
  | _ => none

/-- The natural number that a value stands for. -/
def natOf? (value : Value) : Option Nat :=
  match value with
  | .integer n => if 0 ≤ n then some n.toNat else none
  | _ => none

/-- The output format that a value stands for. -/
def outputOf? (value : Value) : Option OutputFormat :=
  match value with
  | .string text =>
    if text = OutputFormat.text.name then some .text
    else if text = OutputFormat.json.name then some .json
    else none
  | _ => none

/-- The prefixes among the items of an array. -/
def prefixesOf (items : List Value) : List Text := items.filterMap prefixOf?

/-- A notice for each item that is no prefix. -/
def ignoredOf (items : List Value) : List Notice :=
  (items.filter fun item => (prefixOf? item).isNone).map Notice.rollPrefixIgnored

/-! ### One setting after another -/

/-- What was read from a table, the table in which it holds, and what the log
is told. -/
structure Completed (α : Type) where
  /-- What was read. -/
  result : α
  /-- The table with the defaults filled in. -/
  table : Table
  /-- What the log is told, in order. -/
  notices : List Notice

/-- The value that an entry stands for; if there is none, the default, which is
filled into the table with a notice. -/
def readOr {α : Type} (key : Text) (read? : Value → Option α) (fallback : α) (written : Value)
    (notice : Notice) (t : Table) : Completed α :=
  match (t.find? key).bind read? with
  | some a => ⟨a, t, []⟩
  | none => ⟨fallback, t.insert key written, [notice]⟩

/-- The command prefix. -/
def readCommandPrefix (t : Table) : Completed Text :=
  readOr commandPrefixKey prefixOf? default.commandPrefix (.string default.commandPrefix)
    .commandPrefixReplaced t

/-- The roll prefixes, with the items that are passed over. -/
def readRollPrefixes (t : Table) : Completed (List Text) :=
  let items := readOr rollPrefixesKey Value.array? [] (.array []) .rollPrefixesReplaced t
  ⟨prefixesOf items.result, items.table, items.notices ++ ignoredOf items.result⟩

/-- The seconds after which the dealer's key is renewed. -/
def readReseed (t : Table) : Completed Nat :=
  readOr reseedKey natOf? default.reseedSeconds (.integer default.reseedSeconds) .reseedReplaced t

/-- The output format. -/
def readOutput (t : Table) : Completed OutputFormat :=
  readOr outputKey outputOf? default.output (.string default.output.name) .outputReplaced t

/-- The settings of a table. -/
def complete (t : Table) : Completed Settings :=
  let command := readCommandPrefix t
  let rolls := readRollPrefixes command.table
  let reseed := readReseed rolls.table
  let output := readOutput reseed.table
  { result := ⟨command.result, rolls.result, reseed.result, output.result⟩
    table := output.table
    notices := command.notices ++ rolls.notices ++ reseed.notices ++ output.notices }

/-! ### What stays -/

theorem find?_readOr_of_ne {α : Type} {key other : Text} (h : other ≠ key)
    (read? : Value → Option α) (fallback : α) (written : Value) (notice : Notice) (t : Table) :
    (readOr key read? fallback written notice t).table.find? other = t.find? other := by
  unfold readOr
  split
  · rfl
  · exact Table.find?_insert_ne h _ _

/-- Entries of other keys stay as they are. -/
theorem find?_complete_of_other {other : Text} (hc : other ≠ commandPrefixKey)
    (hr : other ≠ rollPrefixesKey) (hs : other ≠ reseedKey) (ho : other ≠ outputKey) (t : Table) :
    (complete t).table.find? other = t.find? other := by
  simp only [complete, readOutput, readReseed, readRollPrefixes, readCommandPrefix]
  rw [find?_readOr_of_ne ho, find?_readOr_of_ne hs, find?_readOr_of_ne hr, find?_readOr_of_ne hc]

end Settings
end DiceTower
