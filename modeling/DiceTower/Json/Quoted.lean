/-
# Quoted JSON strings

A string is written between double quotes. The quote, the backslash and the
characters below the space are escaped, five of them by a letter and the
others by four hexadecimal digits in lower case; everything else stands for
itself. Reading accepts these escapes, the escaped solidus and hexadecimal
digits of either case, and takes two escapes by digits for one character where
they are a pair of surrogates.

Key definitions: `Json.Quoted.escape`, `Json.Quoted.quote`,
`Json.Quoted.decode?`.
Key theorem: `Json.Quoted.quote_eq_of_plain`.
-/
import DiceTower.Text.Basic

namespace DiceTower
namespace Json
namespace Quoted

/-! ### Writing -/

/-- The hexadecimal digit of a number below sixteen, in lower case. -/
def hexDigit (n : Nat) : Char := if n < 10 then Char.ofNat (n + 48) else Char.ofNat (n + 87)

/-- The form of a character inside a quoted string. -/
def escape (c : Char) : Text :=
  if c = '"' then ['\\', '"']
  else if c = '\\' then ['\\', '\\']
  else if c = '\x08' then ['\\', 'b']
  else if c = '\x0c' then ['\\', 'f']
  else if c = '\n' then ['\\', 'n']
  else if c = '\r' then ['\\', 'r']
  else if c = '\t' then ['\\', 't']
  else if c.toNat < 32 then
    ['\\', 'u', '0', '0', hexDigit (c.toNat / 16), hexDigit (c.toNat % 16)]
  else [c]

/-- The escaped characters of a text. -/
def encode (text : Text) : Text := text.flatMap escape

/-- The text between double quotes. -/
def quote (text : Text) : Text := '"' :: encode text ++ ['"']

/-! ### Reading -/

/-- The value of a hexadecimal digit. -/
def hexValue? (c : Char) : Option Nat :=
  if '0' ≤ c ∧ c ≤ '9' then some (c.toNat - 48)
  else if 'a' ≤ c ∧ c ≤ 'f' then some (c.toNat - 87)
  else if 'A' ≤ c ∧ c ≤ 'F' then some (c.toNat - 55)
  else none

/-- The number of four hexadecimal digits. -/
def hexCode? (a b c d : Char) : Option Nat := do
  return (((← hexValue? a) * 16 + (← hexValue? b)) * 16 + (← hexValue? c)) * 16 + (← hexValue? d)

/-- The character of a code, unless it is a surrogate. -/
def codeChar? (n : Nat) : Option Char := if n.isValidChar then some (Char.ofNat n) else none

/-- The character that a high and a low surrogate stand for together. -/
def pairChar? (high low : Nat) : Option Char :=
  if 0xD800 ≤ high ∧ high < 0xDC00 ∧ 0xDC00 ≤ low ∧ low < 0xE000 then
    some (Char.ofNat (0x10000 + (high - 0xD800) * 0x400 + (low - 0xDC00)))
  else none

/-- Every character beyond the first 65536 has its pair of surrogates. -/
theorem pairChar?_surrogates {c : Char} (h : 0x10000 ≤ c.toNat) :
    pairChar? (0xD800 + (c.toNat - 0x10000) / 0x400) (0xDC00 + (c.toNat - 0x10000) % 0x400) =
      some c := by
  have hlt : c.toNat < 0x110000 := by
    have hvalid : c.toNat.isValidChar := c.valid
    unfold Nat.isValidChar at hvalid
    omega
  have hcode : 0x10000 + (0xD800 + (c.toNat - 0x10000) / 0x400 - 0xD800) * 0x400 +
      (0xDC00 + (c.toNat - 0x10000) % 0x400 - 0xDC00) = c.toNat := by omega
  rw [pairChar?, if_pos (by omega), hcode, Char.ofNat_toNat]

/-- The character of an escape by one letter. -/
def shortEscape? (c : Char) : Option Char :=
  if c = '"' ∨ c = '\\' ∨ c = '/' then some c
  else if c = 'b' then some '\x08'
  else if c = 'f' then some '\x0c'
  else if c = 'n' then some '\n'
  else if c = 'r' then some '\r'
  else if c = 't' then some '\t'
  else none

/-- The characters up to the closing quote, and the rest behind it. -/
def decode? : Text → Option (Text × Text)
  | [] => none
  | '"' :: rest => some ([], rest)
  | '\\' :: 'u' :: a :: b :: c :: d :: rest =>
    match hexCode? a b c d with
    | none => none
    | some n =>
      match codeChar? n with
      | some x => do
        let (text, rest) ← decode? rest
        return (x :: text, rest)
      | none =>
        match rest with
        | '\\' :: 'u' :: e :: f :: g :: h :: rest => do
          let x ← pairChar? n (← hexCode? e f g h)
          let (text, rest) ← decode? rest
          return (x :: text, rest)
        | _ => none
  | '\\' :: c :: rest => do
    let x ← shortEscape? c
    let (text, rest) ← decode? rest
    return (x :: text, rest)
  | c :: rest =>
    if c = '\\' ∨ c.toNat < 32 then none
    else do
      let (text, rest) ← decode? rest
      return (c :: text, rest)

/-! ### Plain characters -/

/-- A plain character stands for itself. -/
def IsPlain (c : Char) : Prop := c ≠ '"' ∧ c ≠ '\\' ∧ 32 ≤ c.toNat

theorem escape_of_plain {c : Char} (h : IsPlain c) : escape c = [c] := by
  obtain ⟨hq, hb, hs⟩ := h
  have hne : ∀ d : Char, d.toNat < 32 → c ≠ d := fun d hd he => by subst he; omega
  simp only [escape, if_neg hq, if_neg hb, if_neg (hne '\x08' (by decide)),
    if_neg (hne '\x0c' (by decide)), if_neg (hne '\n' (by decide)), if_neg (hne '\r' (by decide)),
    if_neg (hne '\t' (by decide)), if_neg (show ¬c.toNat < 32 by omega)]

/-- A text of plain characters is quoted with nothing escaped. -/
theorem quote_eq_of_plain {text : Text} (h : ∀ c ∈ text, IsPlain c) :
    quote text = '"' :: text ++ ['"'] := by
  have : encode text = text := by
    induction text with
    | nil => rfl
    | cons c rest ih =>
      have hr := ih fun d hd => h d (List.mem_cons_of_mem _ hd)
      simp only [encode, List.flatMap_cons, escape_of_plain (h c List.mem_cons_self),
        List.singleton_append] at hr ⊢
      rw [hr]
  rw [quote, this]

end Quoted
end Json
end DiceTower
