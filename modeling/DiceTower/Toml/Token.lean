/-
# Tokens of settings files

A settings file is cut into line ends, signs, words and quoted strings;
blanks and comments separate tokens and are dropped. Words are the runs of
characters of which unquoted keys and numbers consist. The characters are
read one at a time by a machine whose mode says inside what it stands.

Key definitions: `Toml.Token`, `Toml.Mode`, `Toml.Mode.step`,
`Toml.tokens?`.
Key theorem: `Toml.tokensFrom?_append_of_run`.
-/
import DiceTower.Json.Quoted
import DiceTower.Toml.Quoted

namespace DiceTower
namespace Toml

/-- A token of a settings file. -/
inductive Token where
  | newline
  | equals
  | comma
  | opening
  | closing
  /-- Characters of which unquoted keys and numbers consist. -/
  | word (text : Text)
  /-- The text of a quoted string. -/
  | quoted (text : Text)
deriving DecidableEq

/-- Inside what the machine stands; texts read so far are kept in reverse. -/
inductive Mode where
  /-- Between two tokens. -/
  | between
  /-- Inside a comment. -/
  | comment
  /-- Inside a word. -/
  | word (read : Text)
  /-- Inside a string between single quotes. -/
  | literal (read : Text)
  /-- Inside a string between double quotes. -/
  | basic (read : Text)
  /-- Behind a backslash. -/
  | escape (read : Text)
  /-- Inside the hexadecimal digits of an escape: how many are to come, and the
  value of those that were read. -/
  | code (read : Text) (left : Nat) (value : Nat)
deriving DecidableEq

/-! ### Classes of characters -/

/-- The characters of words: those of unquoted keys, the plus sign and the point. -/
def isWordChar (c : Char) : Bool := isBare c || c == '+' || c == '.'

/-- The characters that a comment may hold. -/
def isCommentChar (c : Char) : Bool := c == '\t' || decide (32 ≤ c.toNat)

/-- The characters that a string may hold as they are. -/
def isStringChar (c : Char) : Bool := c == '\t' || (decide (32 ≤ c.toNat) && c.toNat != 127)

/-- The character of an escape by one letter. -/
def shortEscape? (c : Char) : Option Char :=
  if c = '"' ∨ c = '\\' then some c
  else if c = 'b' then some '\x08'
  else if c = 't' then some '\t'
  else if c = 'n' then some '\n'
  else if c = 'f' then some '\x0c'
  else if c = 'r' then some '\r'
  else none

namespace Mode

/-! ### The machine -/

/-- What a character does between two tokens. -/
def start (c : Char) : Option (Mode × List Token) :=
  if c = '\n' then some (between, [.newline])
  else if c = ' ' ∨ c = '\t' then some (between, [])
  else if c = '#' then some (comment, [])
  else if c = '=' then some (between, [.equals])
  else if c = ',' then some (between, [.comma])
  else if c = '[' then some (between, [.opening])
  else if c = ']' then some (between, [.closing])
  else if c = '\'' then some (literal [], [])
  else if c = '"' then some (basic [], [])
  else if isWordChar c then some (word [c], [])
  else none

/-- The mode behind one more digit of an escape. -/
def afterDigit (read : Text) (left value : Nat) : Option (Mode × List Token) :=
  match left with
  | 0 => if value.isValidChar then some (basic (Char.ofNat value :: read), []) else none
  | left + 1 => some (code read (left + 1) value, [])

/-- The mode behind a character, and the tokens that end there. -/
def step : Mode → Char → Option (Mode × List Token)
  | between, c => start c
  | comment, c =>
    if c = '\n' then some (between, [.newline])
    else if isCommentChar c then some (comment, [])
    else none
  | word read, c =>
    if isWordChar c then some (word (c :: read), [])
    else (start c).map fun next => (next.1, .word read.reverse :: next.2)
  | literal read, c =>
    if c = '\'' then some (between, [.quoted read.reverse])
    else if isStringChar c then some (literal (c :: read), [])
    else none
  | basic read, c =>
    if c = '"' then some (between, [.quoted read.reverse])
    else if c = '\\' then some (escape read, [])
    else if isStringChar c then some (basic (c :: read), [])
    else none
  | escape read, c =>
    if c = 'u' then some (code read 4 0, [])
    else if c = 'U' then some (code read 8 0, [])
    else (shortEscape? c).map fun x => (basic (x :: read), [])
  | code _ 0 _, _ => none
  | code read (left + 1) value, c =>
    match Json.Quoted.hexValue? c with
    | none => none
    | some digit => afterDigit read left (value * 16 + digit)

/-- The tokens that end with the text. -/
def finish : Mode → Option (List Token)
  | between => some []
  | comment => some []
  | word read => some [.word read.reverse]
  | _ => none

end Mode

/-! ### Whole texts -/

/-- The tokens of the rest of a text. -/
def tokensFrom? (mode : Mode) : Text → Option (List Token)
  | [] => mode.finish
  | c :: rest =>
    match mode.step c with
    | none => none
    | some (mode, found) => (tokensFrom? mode rest).map (found ++ ·)

/-- Every line end as a line feed. -/
def foldLineEnds : Text → Text
  | [] => []
  | '\r' :: '\n' :: rest => '\n' :: foldLineEnds rest
  | c :: rest => c :: foldLineEnds rest

/-- The text without the byte order mark that it may start with. -/
def dropMark : Text → Text
  | [] => []
  | c :: rest => if c = '\ufeff' then rest else c :: rest

/-- The tokens of a text. -/
def tokens? (text : Text) : Option (List Token) :=
  tokensFrom? .between (foldLineEnds (dropMark text))

/-- The mode behind a whole text, and the tokens that end inside it. -/
def run? (mode : Mode) : Text → Option (Mode × List Token)
  | [] => some (mode, [])
  | c :: rest =>
    match mode.step c with
    | none => none
    | some (mode, found) => (run? mode rest).map fun next => (next.1, found ++ next.2)

/-- A text is read piece by piece. -/
theorem tokensFrom?_append_of_run {mode next : Mode} {text : Text} {found : List Token}
    (h : run? mode text = some (next, found)) (rest : Text) :
    tokensFrom? mode (text ++ rest) = (tokensFrom? next rest).map (found ++ ·) := by
  induction text generalizing mode found with
  | nil =>
    simp only [run?, Option.some.injEq, Prod.mk.injEq] at h
    obtain ⟨rfl, rfl⟩ := h
    simp
  | cons c text ih =>
    simp only [run?] at h
    split at h
    · simp at h
    · rename_i m found' hs
      obtain ⟨⟨next', found''⟩, hr, he⟩ := Option.map_eq_some_iff.mp h
      simp only [Prod.mk.injEq] at he
      obtain ⟨rfl, rfl⟩ := he
      simp only [List.cons_append, tokensFrom?, hs, ih hr]
      cases tokensFrom? next' rest <;> simp

end Toml
end DiceTower
