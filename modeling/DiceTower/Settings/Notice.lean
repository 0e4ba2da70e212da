/-
# Notices about settings

What the log is told while settings are loaded: defaults that replace entries
of the file, roll prefixes that are passed over, and files that can not be
read or written, with what the system says about it. A roll prefix that is
passed over is quoted in its notice, so a notice can not be worded if the item
in it can not be written.

The log shows the notices that are grave enough. Only those are worded, so
where warnings are not shown nothing is quoted; where they are, telling the log
breaks off at the first notice that can not be worded, and the lines in front
of it stay. What the program says of its ordinary course, below a warning, is
not covered.

Key definitions: `Verbosity`, `Notice`, `Notice.level`, `Notice.message?`,
`Notice.logLines?`, `Notice.tellAll`.
Key theorem: `Notice.tellAll_append`.
-/
import DiceTower.Toml.Writer

namespace DiceTower

/-- How grave a line of the log is. -/
inductive Level where
  | warning
  | error
deriving DecidableEq

/-- A line of the log. -/
abbrev LogLine := Level × Text

/-- Which lines the log shows. -/
inductive Verbosity where
  | silent
  | errors
  | warnings
deriving DecidableEq

/-- Whether lines of the level are shown. -/
def Verbosity.shows : Verbosity → Level → Bool
  | silent, _ => false
  | errors, level => level == .error
  | warnings, _ => true

/-- What the log is told about settings. -/
inductive Notice where
  /-- The command prefix is missing or unusable, and the default replaces it. -/
  | commandPrefixReplaced
  /-- The roll prefixes are missing or no array, and the default replaces them. -/
  | rollPrefixesReplaced
  /-- An item of the roll prefixes is no usable prefix. -/
  | rollPrefixIgnored (item : Toml.Value)
  /-- The seconds are missing or no natural number, and the default replaces them. -/
  | reseedReplaced
  /-- The output format is missing or unknown, and the default replaces it. -/
  | outputReplaced
  /-- The file can not be read, and what is said about it. -/
  | unreadable (words : Text)
  /-- The file is no settings file, and what is said about it. -/
  | unparsable (words : Text)
  /-- The completed table can not be written as a file. -/
  | unserializable
  /-- The file can not be written, and what is said about it. -/
  | unwritable (words : Text)

namespace Notice

/-- Failures to write are errors, and everything else is a warning. -/
def level : Notice → Level
  | unserializable => .error
  | unwritable _ => .error
  | _ => .warning

/-- The words of a notice, unless it quotes an item that can not be written. -/
def message? : Notice → Option Text
  | commandPrefixReplaced => some "unable to read command_prefix, overwriting with !".toList
  | rollPrefixesReplaced => some "unable to read roll_prefixes, overwriting with []".toList
  | rollPrefixIgnored item => item.render?.map ("ignoring invalid roll prefix ".toList ++ ·)
  | reseedReplaced => some "unable to read rng_reseed_s, overwriting with 300".toList
  | outputReplaced => some "unable to read output, overwriting with \"text\"".toList
  | unreadable words => some ("Unable to read config file: ".toList ++ words)
  | unparsable words => some ("Unable to parse config: ".toList ++ words)
  | unserializable =>
    some "Error serializing config: values must be emitted before tables".toList
  | unwritable words => some ("Error writing config: ".toList ++ words)

/-- The lines that notices put into a log that shows all of them, if all of them
can be worded. -/
def logLines? : List Notice → Option (List (Level × Text))
  | [] => some []
  | notice :: rest =>
    match notice.message?, logLines? rest with
    | some message, some lines => some ((notice.level, message) :: lines)
    | _, _ => none

/-- The log with the lines of notices behind those that it has, or the log as it
is where a notice that is shown can not be worded. -/
def tellAll (verbosity : Verbosity) (log : List LogLine) :
    List Notice → Except (List LogLine) (List LogLine)
  | [] => .ok log
  | notice :: rest =>
    if verbosity.shows notice.level then
      match notice.message? with
      | none => .error log
      | some message => tellAll verbosity (log ++ [(notice.level, message)]) rest
    else tellAll verbosity log rest

/-- Notices are told one after another. -/
theorem tellAll_append (verbosity : Verbosity) (log : List LogLine) (first second : List Notice) :
    tellAll verbosity log (first ++ second) =
      (tellAll verbosity log first).bind fun log => tellAll verbosity log second := by
  induction first generalizing log with
  | nil => rfl
  | cons notice rest ih =>
    simp only [List.cons_append, tellAll, ih]
    split
    · cases notice.message? <;> rfl
    · rfl

end Notice
end DiceTower
