/-
# Runs of characters

A run of characters of one kind ends where one of another kind follows, so it
can be told from the text that it stands in front of (`takeWhile_append_run`,
`run_append_inj`). The digits of a number are such a run, so a number is told
from what follows it too (`ofInt_append_inj`). They begin with a zero for zero
only (`eq_of_head?_ofNat`), and zeros in front of a run or behind it change what
it stands for in the usual way (`value_replicate_append`,
`value_append_replicate`).

Key definition: `Text.IsDigits`.
Key theorems: `Text.takeWhile_append_run`, `Text.run_append_inj`,
`Text.ofNat_append_inj`, `Text.ofInt_append_inj`, `Text.eq_of_head?_ofNat`.
-/
import DiceTower.Text.Digits
import Mathlib.Algebra.Order.Ring.Nat

namespace DiceTower
namespace Text

/-! ### Runs in front of other text -/

/-- A run ends in front of text of another kind. -/
theorem takeWhile_append_run {p : Char → Bool} {run rest : Text} (hrun : ∀ c ∈ run, p c = true)
    (hrest : ∀ c, rest.head? = some c → p c = false) :
    (run ++ rest).takeWhile p = run ∧ (run ++ rest).dropWhile p = rest := by
  rw [List.takeWhile_append_of_pos hrun, List.dropWhile_append_of_pos hrun]
  cases rest with
  | nil => simp
  | cons c rest => simp [hrest c rfl]

/-- Two runs of one kind in front of text of another are the same. -/
theorem run_append_inj {p : Char → Bool} {run run' rest rest' : Text}
    (hrun : ∀ c ∈ run, p c = true) (hrun' : ∀ c ∈ run', p c = true)
    (hrest : ∀ c, rest.head? = some c → p c = false)
    (hrest' : ∀ c, rest'.head? = some c → p c = false) (h : run ++ rest = run' ++ rest') :
    run = run' ∧ rest = rest' := by
  have heq : run = run' := by
    rw [← (takeWhile_append_run hrun hrest).1, h, (takeWhile_append_run hrun' hrest').1]
  subst heq
  exact ⟨rfl, List.append_cancel_left h⟩

/-! ### Numbers in front of other text -/

/-- The digits of a number end where no digit follows. -/
theorem ofNat_append_inj {m n : Nat} {rest rest' : Text}
    (hrest : ∀ c, rest.head? = some c → c.isDigit = false)
    (hrest' : ∀ c, rest'.head? = some c → c.isDigit = false)
    (h : ofNat m ++ rest = ofNat n ++ rest') : m = n ∧ rest = rest' := by
  obtain ⟨hrun, htext⟩ := run_append_inj (fun c => isDigit_of_mem_ofNat)
    (fun c => isDigit_of_mem_ofNat) hrest hrest' h
  have hvalue := congrArg value hrun
  rw [value_ofNat, value_ofNat] at hvalue
  exact ⟨hvalue, htext⟩

/-- A number written with its digits begins with one. -/
theorem exists_ofNat_eq_cons (n : Nat) :
    ∃ c rest, ofNat n = c :: rest ∧ c.isDigit = true := by
  cases h : ofNat n with
  | nil => exact absurd h (ofNat_ne_nil n)
  | cons c rest => exact ⟨c, rest, rfl, isDigit_of_mem_ofNat (n := n) (by simp [h])⟩

/-- A sign is no digit. -/
theorem minus_cons_ne_ofNat_append (n : Nat) (rest rest' : Text) :
    '-' :: rest ≠ ofNat n ++ rest' := by
  obtain ⟨c, digits, hdigits, hc⟩ := exists_ofNat_eq_cons n
  rw [hdigits, List.cons_append, Ne, List.cons.injEq]
  rintro ⟨rfl, -⟩
  exact absurd hc (by decide)

/-- A number with its sign ends where no digit follows. -/
theorem ofInt_append_inj {m n : Int} {rest rest' : Text}
    (hrest : ∀ c, rest.head? = some c → c.isDigit = false)
    (hrest' : ∀ c, rest'.head? = some c → c.isDigit = false)
    (h : ofInt m ++ rest = ofInt n ++ rest') : m = n ∧ rest = rest' := by
  unfold ofInt at h
  by_cases hm : m < 0
  · by_cases hn : n < 0
    · rw [if_pos hm, if_pos hn, List.cons_append, List.cons_append, List.cons.injEq] at h
      obtain ⟨hnat, htext⟩ := ofNat_append_inj hrest hrest' h.2
      exact ⟨by omega, htext⟩
    · rw [if_pos hm, if_neg hn] at h
      exact absurd h (minus_cons_ne_ofNat_append _ _ _)
  · by_cases hn : n < 0
    · rw [if_neg hm, if_pos hn] at h
      exact absurd h.symm (minus_cons_ne_ofNat_append _ _ _)
    · rw [if_neg hm, if_neg hn] at h
      obtain ⟨hnat, htext⟩ := ofNat_append_inj hrest hrest' h
      exact ⟨by omega, htext⟩

theorem ofInt_injective {m n : Int} (h : ofInt m = ofInt n) : m = n := by
  have hnil : ∀ c, ([] : Text).head? = some c → c.isDigit = false := by simp
  exact (ofInt_append_inj hnil hnil (congrArg (· ++ []) h)).1

/-! ### Runs of digits -/

/-- The text is a run of one or more digits. -/
def IsDigits (run : Text) : Prop := run ≠ [] ∧ ∀ c ∈ run, c.isDigit = true

theorem isDigits_ofNat (n : Nat) : IsDigits (ofNat n) :=
  ⟨ofNat_ne_nil n, fun _ => isDigit_of_mem_ofNat⟩

theorem IsDigits.append_left {run more : Text} (h : IsDigits run)
    (hmore : ∀ c ∈ more, c.isDigit = true) : IsDigits (run ++ more) := by
  refine ⟨by simp [h.1], ?_⟩
  intro c hc
  rcases List.mem_append.mp hc with hc | hc
  · exact h.2 c hc
  · exact hmore c hc

/-- A character that is no digit is not one that is. -/
theorem ne_of_isDigit {c d : Char} (hc : c.isDigit = true) (hd : d.isDigit = false) : c ≠ d := by
  rintro rfl
  rw [hd] at hc
  cases hc

theorem isDigit_of_mem_replicate {k : Nat} {c : Char} (h : c ∈ List.replicate k '0') :
    c.isDigit = true := by
  rw [List.eq_of_mem_replicate h]
  decide

/-- Only the digits of zero begin with a zero. -/
theorem eq_of_head?_ofNat {n : Nat} (h : (ofNat n).head? = some '0') : n = 0 := by
  induction n using Nat.strongRecOn with
  | ind n ih =>
    by_cases hn : n < 10
    · rw [ofNat, Nat.toDigits_of_lt_base hn, List.head?_cons, Option.some.injEq] at h
      have hvalue := value_ofNat n
      rw [ofNat, Nat.toDigits_of_lt_base hn, h] at hvalue
      exact hvalue.symm
    · have hsplit : ofNat n = ofNat (n / 10) ++ [(n % 10).digitChar] :=
        Nat.toDigits_of_base_le (by decide) (by omega)
      have hhead : (ofNat n).head? = (ofNat (n / 10)).head? := by
        rw [hsplit, List.head?_append, List.head?_eq_some_head (ofNat_ne_nil _), Option.some_or]
      have := ih (n / 10) (by omega) (hhead ▸ h)
      omega

/-- Zeros in front of a run have no say. -/
theorem value_replicate_append (k : Nat) (run : Text) :
    value (List.replicate k '0' ++ run) = value run := by
  rw [value, Nat.ofDigitChars_append, Nat.ofDigitChars_replicate_zero, Nat.mul_zero]
  rfl

/-- Each zero behind a run counts ten times. -/
theorem value_append_replicate (run : Text) (k : Nat) :
    value (run ++ List.replicate k '0') = value run * 10 ^ k := by
  rw [value, Nat.ofDigitChars_append, Nat.ofDigitChars_replicate_zero, Nat.mul_comm]
  rfl

end Text
end DiceTower
