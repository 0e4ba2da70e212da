/-
# The system that settings are loaded on

What stands at the path of the settings may be missing, may be a directory, and
may hold anything. Whether it can be read and written, which table its octets
stand for, what is said where that fails, and which lines the log shows is up
to the system. Of the reader it is only asked that tables are in the order of
their keys; that it reads what was written is a property of its own.

Key definitions: `SettingsFile`, `Access`, `Host`, `Host.ReadsBack`,
`Host.ReadsAs`.
-/
import DiceTower.Settings.Notice
import DiceTower.Text.Utf8

namespace DiceTower

/-- What stands at the path of the settings. -/
inductive SettingsFile where
  | missing
  | directory
  | octets (content : List UInt8)
deriving DecidableEq

/-- How the system takes to reading and writing at the path. -/
structure Access where
  /-- What is said on reading where no file is. -/
  missing : Text
  /-- What is said on reading or writing a directory. -/
  directory : Text
  /-- What is said on reading a file, if files are not to be read. -/
  reading : Option Text
  /-- What is said on writing a file, if files are not to be written. -/
  writing : Option Text

namespace Access

/-- The octets of what stands at the path, or what is said instead. -/
def read (access : Access) : SettingsFile → Except Text (List UInt8)
  | .missing => .error access.missing
  | .directory => .error access.directory
  | .octets content =>
    match access.reading with
    | none => .ok content
    | some words => .error words

/-- The path with the given octets written to it, or what is said instead. -/
def write (access : Access) (file : SettingsFile) (content : List UInt8) :
    Except Text SettingsFile :=
  match file with
  | .directory => .error access.directory
  | _ =>
    match access.writing with
    | none => .ok (.octets content)
    | some words => .error words

end Access

/-- The system that settings are loaded on. -/
structure Host where
  /-- How it takes to reading and writing at the path. -/
  access : Access
  /-- The table that octets stand for, or what is said instead. -/
  read : List UInt8 → Except Text Toml.Table
  /-- A table that is read is in the order of its keys. -/
  sorted : ∀ {content : List UInt8} {t : Toml.Table}, read content = .ok t → t.Sorted
  /-- Which lines its log shows. -/
  verbosity : Verbosity

namespace Host

/-- What is written of the table, if it can be written, reads as the table. -/
def ReadsBack (host : Host) (t : Toml.Table) : Prop :=
  ∀ text, Toml.write? t = some text → host.read (Text.encode text) = .ok t

/-- What stands at the path can be read, and reads as the table. -/
def ReadsAs (host : Host) (file : SettingsFile) (t : Toml.Table) : Prop :=
  ∃ content, host.access.read file = .ok content ∧ host.read content = .ok t

end Host
end DiceTower
