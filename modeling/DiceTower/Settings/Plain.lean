/-
# A system that reads plain settings files

The program brings a reader of its own for plain settings files. A file that is
not plain is no settings file to it.

Key definitions: `Access.granted`, `Host.plain`.
-/
import DiceTower.Settings.Host
import DiceTower.Toml.Readable

namespace DiceTower

/-- Files can be read and written. -/
def Access.granted : Access where
  missing := "No such file or directory (os error 2)".toList
  directory := "Is a directory (os error 21)".toList
  reading := none
  writing := none

/-- The table of a plain settings file. -/
def readPlain (content : List UInt8) : Except Text Toml.Table :=
  match (Text.decode? content).bind Toml.readPlain? with
  | some t => .ok t
  | none => .error "not a plain settings file".toList

theorem readPlain_eq_ok_iff {content : List UInt8} {t : Toml.Table} :
    readPlain content = .ok t ↔ (Text.decode? content).bind Toml.readPlain? = some t := by
  unfold readPlain
  cases (Text.decode? content).bind Toml.readPlain? <;> simp

/-- What is read is a plain file. -/
theorem isFile_of_readPlain {content : List UInt8} {t : Toml.Table} (h : readPlain content = .ok t) :
    Toml.IsFile t := by
  obtain ⟨text, -, hread⟩ := Option.bind_eq_some_iff.mp (readPlain_eq_ok_iff.mp h)
  exact Toml.isFile_of_readPlain? hread

/-- The system that reads plain settings files. -/
def Host.plain (access : Access) (verbosity : Verbosity) : Host where
  access := access
  read := readPlain
  sorted := fun h => (isFile_of_readPlain h).sorted
  verbosity := verbosity

end DiceTower
