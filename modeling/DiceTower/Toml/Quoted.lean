/-
# Quoted strings and keys

A string is written between double quotes, with escapes for the quote, the
backslash and the control characters; the hexadecimal digits of an escape are
upper case. A key is written without quotes if it consists of ASCII letters,
digits, hyphens and underscores. The keys that lead to a table are written
with points between them.

Key definitions: `Toml.escape`, `Toml.quote`, `Toml.isBare`, `Toml.writeKey`,
`Toml.writePath`.
-/
import DiceTower.Text.Basic

namespace DiceTower
namespace Toml

/-- The hexadecimal digit of a number below sixteen, in upper case. -/
def hexDigit (n : Nat) : Char := if n < 10 then Char.ofNat (n + 48) else Char.ofNat (n + 55)

/-- The form of a character inside a quoted string. -/
def escape (c : Char) : Text :=
  if c = '\x08' then ['\\', 'b']
  else if c = '\t' then ['\\', 't']
  else if c = '\n' then ['\\', 'n']
  else if c = '\x0c' then ['\\', 'f']
  else if c = '\r' then ['\\', 'r']
  else if c = '"' then ['\\', '"']
  else if c = '\\' then ['\\', '\\']
  else if c.toNat < 32 ∨ c.toNat = 127 then
    ['\\', 'u', '0', '0', hexDigit (c.toNat / 16), hexDigit (c.toNat % 16)]
  else [c]

/-- The text between double quotes. -/
def quote (text : Text) : Text := '"' :: text.flatMap escape ++ ['"']

/-- The characters that a key may hold without quotes. -/
def isBare (c : Char) : Bool := c.isAlphanum || c == '-' || c == '_'

/-- A key, in quotes unless it consists of bare characters. -/
def writeKey (key : Text) : Text := if key ≠ [] ∧ key.all isBare then key else quote key

/-- Keys with points between them, the outermost first. -/
def writePath (path : List Text) : Text := ['.'].intercalate (path.map writeKey)

end Toml
end DiceTower
