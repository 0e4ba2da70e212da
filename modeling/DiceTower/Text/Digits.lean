/-
# Decimal digits

Numbers are read from runs of the ten ASCII digits and written without
leading zeros; digits of other scripts are ordinary characters. A signed
number has a minus sign when it is negative, and a plus sign only where the
sign is asked for.

Key definitions: `Text.digits`, `Text.digits?`, `Text.value`, `Text.ofNat`,
`Text.ofInt`, `Text.ofIntSigned`.
Key theorems: `Text.value_ofNat`, `Text.digits_append`,
`Text.digits_fst_append_snd`.
-/
import DiceTower.Text.Basic

namespace DiceTower
namespace Text

/-! ### Runs of digits -/

/-- The longest run of digits at the start of a text, and what follows it. -/
def digits (text : Text) : Text × Text := (text.takeWhile Char.isDigit, text.dropWhile Char.isDigit)

/-- The run of digits at the start of a text, unless it is empty. -/
def digits? (text : Text) : Option (Text × Text) :=
  match digits text with
  | ([], _) => none
  | run => some run

/-- Nothing is lost. -/
theorem digits_fst_append_snd (text : Text) : (digits text).1 ++ (digits text).2 = text :=
  List.takeWhile_append_dropWhile

/-- A run ends where the next character is no digit. -/
theorem digits_append {run rest : Text} (hrun : ∀ c ∈ run, c.isDigit = true)
    (hrest : ∀ c, rest.head? = some c → c.isDigit = false) : digits (run ++ rest) = (run, rest) := by
  induction run with
  | nil =>
    cases rest with
    | nil => rfl
    | cons c rest => simp [digits, hrest c rfl]
  | cons c run ih =>
    have hc : c.isDigit = true := hrun c List.mem_cons_self
    have := ih fun d hd => hrun d (List.mem_cons_of_mem _ hd)
    simp only [digits, Prod.mk.injEq] at this
    simp [digits, hc, this.1, this.2]

/-! ### Reading and writing -/

/-- The number that a run of digits stands for; the empty run stands for zero. -/
def value (run : Text) : Nat := Nat.ofDigitChars 10 run 0

/-- The decimal digits of a number, without leading zeros. -/
def ofNat (n : Nat) : Text := Nat.toDigits 10 n

/-- The digits of a number, after a minus sign if it is negative. -/
def ofInt (n : Int) : Text := if n < 0 then '-' :: ofNat n.natAbs else ofNat n.natAbs

/-- The digits of a number, after its sign in either case. -/
def ofIntSigned (n : Int) : Text := (if n < 0 then '-' else '+') :: ofNat n.natAbs

/-- What is written reads back. -/
theorem value_ofNat (n : Nat) : value (ofNat n) = n := Nat.ofDigitChars_ten_toDigits

theorem ofNat_ne_nil (n : Nat) : ofNat n ≠ [] := Nat.toDigits_ne_nil

/-- Only digits are written. -/
theorem isDigit_of_mem_ofNat {n : Nat} {c : Char} (h : c ∈ ofNat n) : c.isDigit = true :=
  Nat.isDigit_of_mem_toDigits (by decide) (by decide) h

end Text
end DiceTower
