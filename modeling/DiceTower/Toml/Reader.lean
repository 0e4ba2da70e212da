/-
# Reading plain settings files

The tokens of a plain file are read one at a time into a draft: the table so
far, the section that is being filled, and what is expected next. Entries in
front of the first heading belong to the file itself. Of two entries of the
file with one key the later counts; inside a section a key may stand once, and
a heading may stand once in a file.

Files that are not plain are not read: those with tables inside tables or
arrays, tables between braces, keys with points, dates and times, numbers with
another base, or strings over several lines.

Key definitions: `Toml.Draft`, `Toml.Draft.step`, `Toml.readPlain?`.
-/
import DiceTower.Toml.Number
import DiceTower.Toml.Token

namespace DiceTower
namespace Toml

/-- What is expected next. The arrays that are open are kept with the innermost
first, their items in reverse. -/
inductive Expected where
  /-- An entry, a heading, or an empty line. -/
  | line
  /-- The name of a heading. -/
  | headingName
  /-- The bracket behind the name of a heading. -/
  | headingEnd (name : Text)
  /-- The end of the line. -/
  | lineEnd
  /-- The equals sign behind a key. -/
  | equals (key : Text)
  /-- A value, or the end of the innermost array. -/
  | value (key : Text) (arrays : List (List Value))
  /-- A comma, or the end of the innermost array. -/
  | separator (key : Text) (arrays : List (List Value))

/-- What was read of a file so far. -/
structure Draft where
  /-- The entries of the file. -/
  top : Table
  /-- The names of all headings. -/
  names : List Text
  /-- The section that is being filled. -/
  current : Option (Text × Table)
  /-- What is expected next. -/
  expected : Expected

namespace Draft

/-- The draft of an empty file. -/
def empty : Draft := ⟨[], [], none, .line⟩

/-- The entries of the file with those of the section that is being filled. -/
def table (d : Draft) : Table :=
  match d.current with
  | none => d.top
  | some (name, entries) => d.top.insert name (.table entries)

/-- The draft with one more entry. -/
def store (d : Draft) (key : Text) (value : Value) : Option Draft :=
  match d.current with
  | none => some { d with top := d.top.insert key value, expected := .lineEnd }
  | some (name, entries) =>
    if (entries.find? key).isSome then none
    else some { d with current := some (name, entries.insert key value), expected := .lineEnd }

/-- The draft with one more section. -/
def openSection (d : Draft) (name : Text) : Option Draft :=
  if name ∈ d.names then none
  else some ⟨d.table, name :: d.names, some (name, []), .lineEnd⟩

/-- The draft behind a value, which ends an entry or is an item of the innermost array. -/
def deliver (d : Draft) (key : Text) (value : Value) : List (List Value) → Option Draft
  | [] => d.store key value
  | items :: outer => some { d with expected := .separator key ((value :: items) :: outer) }

/-- The draft behind the end of the innermost array. -/
def close (d : Draft) (key : Text) : List (List Value) → Option Draft
  | [] => none
  | items :: outer => d.deliver key (.array items.reverse) outer

/-- The value that a word stands for. -/
def scalar? (word : Text) : Option Value :=
  if word = "true".toList then some (.boolean true)
  else if word = "false".toList then some (.boolean false)
  else number? word

/-- The key that a token stands for. -/
def key? : Token → Option Text
  | .word text => if text.all isBare then some text else none
  | .quoted text => some text
  | _ => none

/-- The draft behind a token where a line is expected. -/
def stepLine (d : Draft) : Token → Option Draft
  | .newline => some d
  | .opening => some { d with expected := .headingName }
  | token => (key? token).map fun key => { d with expected := .equals key }

/-- The draft behind a token where a value is expected. -/
def stepValue (d : Draft) (key : Text) (arrays : List (List Value)) : Token → Option Draft
  | .quoted text => d.deliver key (.string text) arrays
  | .word text =>
    match scalar? text with
    | none => none
    | some value => d.deliver key value arrays
  | .opening => some { d with expected := .value key ([] :: arrays) }
  | .closing => d.close key arrays
  | .newline => if arrays.isEmpty then none else some d
  | _ => none

/-- The draft behind a token where a separator is expected. -/
def stepSeparator (d : Draft) (key : Text) (arrays : List (List Value)) : Token → Option Draft
  | .comma => some { d with expected := .value key arrays }
  | .closing => d.close key arrays
  | .newline => some d
  | _ => none

/-- The draft behind a token, if the token may stand there. -/
def step (d : Draft) (token : Token) : Option Draft :=
  match d.expected with
  | .line => d.stepLine token
  | .headingName => (key? token).map fun name => { d with expected := .headingEnd name }
  | .headingEnd name => if token = .closing then d.openSection name else none
  | .lineEnd => if token = .newline then some { d with expected := .line } else none
  | .equals key => if token = .equals then some { d with expected := .value key [] } else none
  | .value key arrays => d.stepValue key arrays token
  | .separator key arrays => d.stepSeparator key arrays token

/-- The draft behind several tokens. -/
def run? (d : Draft) : List Token → Option Draft
  | [] => some d
  | token :: rest =>
    match d.step token with
    | none => none
    | some d => run? d rest

/-- The table of a file that may end here. -/
def finish (d : Draft) : Option Table :=
  match d.expected with
  | .line => some d.table
  | .lineEnd => some d.table
  | _ => none

end Draft

/-- The table that a text stands for, if it is a plain settings file. -/
def readPlain? (text : Text) : Option Table :=
  match tokens? text with
  | none => none
  | some tokens =>
    match Draft.empty.run? tokens with
    | none => none
    | some draft => draft.finish

end Toml
end DiceTower
