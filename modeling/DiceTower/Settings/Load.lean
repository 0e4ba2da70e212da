/-
# Loading settings

Whatever stands at the path, settings are loaded from it: what can not be read
is taken for an empty file, and what is no settings file for an empty table.
The log is told about it and about the defaults that are filled in, and then the
completed table is written back where that is possible. A missing file is
created. Where the log shows warnings and one of them can not be worded, loading
breaks off before anything is written.

Key definitions: `Settings.Loaded`, `Settings.tableOf`, `Settings.load`,
`Settings.left`.
-/
import DiceTower.Settings.Complete
import DiceTower.Settings.Host

namespace DiceTower
namespace Settings

/-- What loading comes to. -/
structure Loaded where
  /-- The settings. -/
  settings : Settings
  /-- What stands at the path afterwards. -/
  file : SettingsFile
  /-- The lines that the log shows. -/
  log : List LogLine

section

variable (host : Host)

/-- The octets at the path, none if they can not be read. -/
def readFile (file : SettingsFile) : List UInt8 × List Notice :=
  match host.access.read file with
  | .ok content => (content, [])
  | .error words => ([], [.unreadable words])

/-- The table that octets stand for, empty if they stand for none. -/
def readTable (content : List UInt8) : Toml.Table × List Notice :=
  match host.read content with
  | .ok t => (t, [])
  | .error words => ([], [.unparsable words])

/-- The path after a table is written back to it. -/
def writeBack (file : SettingsFile) (t : Toml.Table) : SettingsFile × List Notice :=
  match Toml.write? t with
  | none => (file, [.unserializable])
  | some text =>
    match host.access.write file (Text.encode text) with
    | .ok after => (after, [])
    | .error words => (file, [.unwritable words])

/-- The table that what stands at the path is taken for. -/
def tableOf (file : SettingsFile) : Toml.Table := (readTable host (readFile host file).1).1

/-- The settings at the path, and the path with the defaults filled in; or the
lines that the log has shown, where loading breaks off. -/
def load (file : SettingsFile) : Except (List LogLine) Loaded := do
  let (content, reading) := readFile host file
  let (t, parsing) := readTable host content
  let completed := complete t
  let log ← Notice.tellAll host.verbosity [] (reading ++ parsing ++ completed.notices)
  let (after, writing) := writeBack host file completed.table
  let log ← Notice.tellAll host.verbosity log writing
  return ⟨completed.result, after, log⟩

/-- What stands at the path when loading is over or has broken off. -/
def left (file : SettingsFile) : SettingsFile :=
  match load host file with
  | .ok loaded => loaded.file
  | .error _ => file

end

end Settings
end DiceTower
