/-
# Decimals that read back

The decimal that a number is written as is read as the same number. The
decimal was found on a grid, where it was tried (`readsBack_of_find`), or it
has all digits of the number. For the latter, what counts is the fraction: its
exponent of two is its binary logarithm less fifty-two, unless that is below
the least exponent (`exponentOf_eq`). So a fraction of the size of a finite
number has the exponent of the number, no digit is rounded, and the number is
the nearest to itself (`nearest_of_div_eq`).

Key definition: `Binary64.magnitude`.
Key theorems: `Binary64.exponentOf_eq`, `Binary64.nearest_of_div_eq`,
`Binary64.nearestDecimal_shortest`, `Binary64.ofDecimal?_shortest`.
-/
import DiceTower.Number.Binary64
import Mathlib.Data.Int.Log
import Mathlib.Data.Nat.Cast.Field
import Mathlib.Data.Rat.Floor
import Mathlib.Tactic.Ring
import Mathlib.Tactic.Positivity
import Mathlib.Tactic.FieldSimp
import Mathlib.Tactic.Linarith

namespace DiceTower
namespace Binary64

open Text

/-! ### Powers of two -/

/-- A power of two with an exponent of either sign, over whole numbers. -/
theorem zpow_eq_div (e : Int) :
    (2 : ℚ) ^ e = (Nat.pow 2 e.toNat : Nat) / (Nat.pow 2 (-e).toNat : Nat) := by
  have hcast : ∀ k : Nat, ((Nat.pow 2 k : Nat) : ℚ) = (2 : ℚ) ^ (k : ℤ) := by
    intro k
    rw [zpow_natCast]
    exact Nat.cast_pow 2 k
  rw [hcast, hcast, ← zpow_sub₀ two_ne_zero]
  congr 1
  omega

theorem half_eq_zpow : (half : ℚ) = 2 ^ (52 : ℤ) := by
  norm_num [half]

theorem log2_bounds {n : Nat} (hn : 0 < n) :
    (2 : ℚ) ^ (Nat.log2 n : ℤ) ≤ n ∧ (n : ℚ) < 2 ^ ((Nat.log2 n : ℤ) + 1) := by
  constructor
  · rw [zpow_natCast]
    exact_mod_cast Nat.log2_self_le hn.ne'
  · have hlt : n < 2 ^ (Nat.log2 n + 1) := Nat.lt_log2_self
    rw [zpow_add₀ two_ne_zero, zpow_natCast, zpow_one, ← pow_succ]
    exact_mod_cast hlt

/-- The logarithm of a fraction is the difference of those of its terms, or one less. -/
theorem log_div_bounds {n d : Nat} (hn : 0 < n) (hd : 0 < d) :
    (Nat.log2 n : ℤ) - Nat.log2 d - 1 ≤ Int.log 2 ((n : ℚ) / d) ∧
      Int.log 2 ((n : ℚ) / d) ≤ (Nat.log2 n : ℤ) - Nat.log2 d := by
  obtain ⟨hnlow, hnhigh⟩ := log2_bounds hn
  obtain ⟨hdlow, hdhigh⟩ := log2_bounds hd
  have hdpos : (0 : ℚ) < d := by exact_mod_cast hd
  have hpos : (0 : ℚ) < (n : ℚ) / d := div_pos (by exact_mod_cast hn) hdpos
  constructor
  · refine (Int.zpow_le_iff_le_log (by decide) hpos).mp ((le_div_iff₀ hdpos).mpr ?_)
    calc (2 : ℚ) ^ ((Nat.log2 n : ℤ) - Nat.log2 d - 1) * d
        ≤ 2 ^ ((Nat.log2 n : ℤ) - Nat.log2 d - 1) * 2 ^ ((Nat.log2 d : ℤ) + 1) :=
          mul_le_mul_of_nonneg_left hdhigh.le (zpow_pos two_pos _).le
      _ = 2 ^ (Nat.log2 n : ℤ) := by rw [← zpow_add₀ two_ne_zero]; congr 1; omega
      _ ≤ n := hnlow
  · refine Int.lt_add_one_iff.mp ((Int.lt_zpow_iff_log_lt (by decide) hpos).mp ?_)
    refine (div_lt_iff₀ hdpos).mpr ?_
    calc (n : ℚ) < 2 ^ ((Nat.log2 n : ℤ) + 1) := hnhigh
      _ = 2 ^ ((Nat.log2 n : ℤ) - Nat.log2 d + 1) * 2 ^ (Nat.log2 d : ℤ) := by
          rw [← zpow_add₀ two_ne_zero]; congr 1; omega
      _ ≤ 2 ^ ((Nat.log2 n : ℤ) - Nat.log2 d + 1) * d :=
          mul_le_mul_of_nonneg_left hdlow (zpow_pos two_pos _).le

/-! ### The exponent of a fraction -/

/-- A product with a power of two is compared over whole numbers. -/
theorem mul_zpow_le_div_iff {m n d : Nat} (hd : 0 < d) (e : Int) :
    (m : ℚ) * 2 ^ e ≤ n / d ↔
      m * (d * Nat.pow 2 e.toNat) ≤ n * Nat.pow 2 (-e).toNat := by
  have hdpos : (0 : ℚ) < d := by exact_mod_cast hd
  have hpos : (0 : ℚ) < (Nat.pow 2 (-e).toNat : Nat) := by
    exact_mod_cast Nat.pow_pos (by decide)
  rw [zpow_eq_div, ← mul_div_assoc, div_le_div_iff₀ hpos hdpos]
  rw [← Nat.cast_mul, ← Nat.cast_mul, ← Nat.cast_mul, Nat.cast_le]
  have hcomm : m * Nat.pow 2 e.toNat * d = m * (d * Nat.pow 2 e.toNat) := by ring
  rw [hcomm]

/-- **The exponent is fifty-two less than the logarithm,** but no less than the least one. -/
theorem exponentOf_eq {n d : Nat} (hn : 0 < n) (hd : 0 < d) :
    exponentOf n d = max leastExponent (Int.log 2 ((n : ℚ) / d) - 52) := by
  obtain ⟨hlow, hhigh⟩ := log_div_bounds hn hd
  have hpos : (0 : ℚ) < (n : ℚ) / d := div_pos (by exact_mod_cast hn) (by exact_mod_cast hd)
  let guess : Int := (Nat.log2 n : Int) - (Nat.log2 d : Int) - 52
  -- the guess is right or one too large, and comparing the fraction with it tells which
  have hfits : half * (d * Nat.pow 2 guess.toNat) ≤ n * Nat.pow 2 (-guess).toNat ↔
      guess + 52 ≤ Int.log 2 ((n : ℚ) / d) := by
    rw [← mul_zpow_le_div_iff hd, half_eq_zpow, ← zpow_add₀ two_ne_zero, add_comm]
    exact Int.zpow_le_iff_le_log (by decide) hpos
  have hbool : (if 0 ≤ guess then decide (half * (d * Nat.pow 2 guess.toNat) ≤ n)
      else decide (half * d ≤ n * Nat.pow 2 (-guess).toNat)) =
        decide (guess + 52 ≤ Int.log 2 ((n : ℚ) / d)) := by
    by_cases h : 0 ≤ guess
    · have hone : Nat.pow 2 (-guess).toNat = 1 := by rw [show (-guess).toNat = 0 by omega]
      rw [if_pos h, decide_eq_decide, ← hfits, hone, Nat.mul_one]
    · have hone : Nat.pow 2 guess.toNat = 1 := by rw [show guess.toNat = 0 by omega]
      rw [if_neg h, decide_eq_decide, ← hfits, hone, Nat.mul_one]
  have hexponent : exponentOf n d = max leastExponent
      (if decide (guess + 52 ≤ Int.log 2 ((n : ℚ) / d)) then guess else guess - 1) := by
    rw [← hbool]
    rfl
  rw [hexponent]
  congr 1
  by_cases h : guess + 52 ≤ Int.log 2 ((n : ℚ) / d)
  · rw [if_pos (decide_eq_true h)]
    omega
  · rw [if_neg (by simpa using h)]
    omega

/-! ### Fractions that are finite numbers -/

/-- The size of a finite number. -/
def magnitude (ordinal : Nat) : ℚ := significand ordinal * 2 ^ exponent ordinal

theorem roundQuotient_mul (s : Nat) {d : Nat} (hd : 0 < d) : roundQuotient (s * d) d = s := by
  simp [roundQuotient, Nat.mul_div_cancel s hd, hd]

/-- A fraction that is a whole number of units is not rounded. -/
theorem scaled_of_div_eq {n d s : Nat} {e : Int} (hd : 0 < d) (h : (n : ℚ) / d = s * 2 ^ e) :
    scaled n d e = s := by
  have hpow : ∀ k : Nat, 0 < Nat.pow 2 k := fun k => Nat.pow_pos (by decide)
  have hdiv : (d : ℚ) ≠ 0 := by exact_mod_cast hd.ne'
  have hden : ((Nat.pow 2 (-e).toNat : Nat) : ℚ) ≠ 0 := by exact_mod_cast (hpow _).ne'
  have hcross : n * Nat.pow 2 (-e).toNat = s * (d * Nat.pow 2 e.toNat) := by
    rw [zpow_eq_div, ← mul_div_assoc, div_eq_div_iff hdiv hden] at h
    have hnat : n * Nat.pow 2 (-e).toNat = s * Nat.pow 2 e.toNat * d := by exact_mod_cast h
    rw [hnat]
    ring
  unfold scaled
  by_cases he : 0 ≤ e
  · have hone : Nat.pow 2 (-e).toNat = 1 := by rw [show (-e).toNat = 0 by omega]
    rw [hone, Nat.mul_one] at hcross
    rw [if_pos he, hcross]
    exact roundQuotient_mul s (Nat.mul_pos hd (hpow _))
  · have hone : Nat.pow 2 e.toNat = 1 := by rw [show e.toNat = 0 by omega]
    rw [hone, Nat.mul_one] at hcross
    rw [if_neg he, hcross]
    exact roundQuotient_mul s hd

/-- A finite number has fifty-three binary digits, unless its exponent is the least one. -/
theorem significand_cases (ordinal : Nat) :
    ordinal < half ∧ significand ordinal = ordinal ∧ exponent ordinal = leastExponent ∨
      half ≤ significand ordinal ∧ significand ordinal < 2 * half ∧
        leastExponent ≤ exponent ordinal := by
  have hhalf : 0 < half := by decide
  by_cases h : ordinal < half
  · left
    exact ⟨h, if_pos h, if_pos h⟩
  · right
    have hmod : ordinal % half < half := Nat.mod_lt _ hhalf
    have hquotient : 0 < ordinal / half := Nat.div_pos (by omega) hhalf
    rw [significand, if_neg h, exponent, if_neg h]
    omega

/-- The ordinal is counted from the exponent and the significand. -/
theorem ordinal_eq (ordinal : Nat) :
    (exponent ordinal - leastExponent).toNat * half + significand ordinal = ordinal := by
  have hhalf : 0 < half := by decide
  by_cases h : ordinal < half
  · rw [significand, if_pos h, exponent, if_pos h]
    simp
  · obtain ⟨q, hq⟩ : ∃ q, ordinal / half = q + 1 :=
      Nat.exists_eq_succ_of_ne_zero (Nat.div_pos (by omega) hhalf).ne'
    have hsplit := Nat.div_add_mod' ordinal half
    rw [significand, if_neg h, exponent, if_neg h, hq]
    rw [hq, Nat.add_mul] at hsplit
    rw [show (leastExponent + ((q + 1 : Nat) : Int) - 1 - leastExponent).toNat = q by omega]
    omega

theorem significand_pos {ordinal : Nat} (h : 0 < ordinal) : 0 < significand ordinal := by
  have hhalf : 0 < half := by decide
  rcases significand_cases ordinal with ⟨-, hs, -⟩ | ⟨hs, -, -⟩ <;> omega

theorem magnitude_pos {ordinal : Nat} (h : 0 < ordinal) : 0 < magnitude ordinal :=
  mul_pos (by exact_mod_cast significand_pos h) (zpow_pos two_pos _)

/-- The exponent of a fraction of the size of a finite number is that of the number. -/
theorem exponentOf_of_div_eq {n d ordinal : Nat} (hd : 0 < d) (hpos : 0 < ordinal)
    (h : (n : ℚ) / d = magnitude ordinal) : exponentOf n d = exponent ordinal := by
  have hmag := magnitude_pos hpos
  have hn : 0 < n := by
    refine Nat.pos_of_ne_zero ?_
    rintro rfl
    rw [Nat.cast_zero, zero_div] at h
    exact hmag.ne h
  have hlog : ∀ k : Int, Int.log 2 (magnitude ordinal) < k ↔ magnitude ordinal < 2 ^ k :=
    fun k => (Int.lt_zpow_iff_log_lt (by decide) hmag).symm
  have hbelow : ∀ k : Nat, significand ordinal < 2 ^ k →
      Int.log 2 (magnitude ordinal) < k + exponent ordinal := by
    intro k hk
    rw [hlog, zpow_add₀ two_ne_zero, zpow_natCast]
    exact mul_lt_mul_of_pos_right (by exact_mod_cast hk) (zpow_pos two_pos _)
  rw [exponentOf_eq hn hd, h]
  rcases significand_cases ordinal with ⟨hlt, hs, he⟩ | ⟨hlow, hhigh, he⟩
  -- fewer digits than fifty-three: the logarithm would give less than the least exponent
  · have := hbelow 52 (by rw [hs]; exact hlt)
    omega
  · have := hbelow 53 hhigh
    have hnot : ¬ Int.log 2 (magnitude ordinal) < 52 + exponent ordinal := by
      rw [hlog, zpow_add₀ two_ne_zero, not_lt]
      exact mul_le_mul_of_nonneg_right (by exact_mod_cast hlow) (zpow_pos two_pos _).le
    omega

/-- **A finite number is the nearest to itself.** -/
theorem nearest_of_div_eq {n d ordinal : Nat} (hd : 0 < d) (hpos : 0 < ordinal)
    (h : (n : ℚ) / d = magnitude ordinal) : nearest n d = ordinal := by
  have hg : 0 < Nat.gcd n d := Nat.gcd_pos_of_pos_right n hd
  have hden : 0 < d / Nat.gcd n d := Nat.div_pos (Nat.gcd_le_right n hd) hg
  have hreduced : ((n / Nat.gcd n d : Nat) : ℚ) / (d / Nat.gcd n d : Nat) = magnitude ordinal := by
    rw [Nat.cast_div_div_div_cancel_right (Nat.gcd_dvd_right n d) (Nat.gcd_dvd_left n d), h]
  have hnum : n / Nat.gcd n d ≠ 0 := by
    intro hzero
    rw [hzero, Nat.cast_zero, zero_div] at hreduced
    exact (magnitude_pos hpos).ne hreduced
  rw [nearest, nearestReduced, if_neg hnum, exponentOf_of_div_eq hden hpos hreduced]
  show (exponent ordinal - leastExponent).toNat * half + scaled _ _ (exponent ordinal) = ordinal
  rw [scaled_of_div_eq hden hreduced, ordinal_eq]

/-! ### The decimals of a number -/

/-- The decimal with all digits reads back. -/
theorem nearestDecimal_exact {ordinal : Nat} (hpos : 0 < ordinal) :
    nearestDecimal (exact ordinal).1 (exact ordinal).2 = ordinal := by
  have hcast : ∀ b k : Nat, ((Nat.pow b k : Nat) : ℚ) = (b : ℚ) ^ k := fun b k => Nat.cast_pow b k
  unfold exact
  by_cases he : 0 ≤ exponent ordinal
  · simp only [if_pos he, nearestDecimal, le_refl]
    refine nearest_of_div_eq Nat.one_pos hpos ?_
    have hone : Nat.pow 2 (-exponent ordinal).toNat = 1 := by
      rw [show (-exponent ordinal).toNat = 0 by omega]
    rw [magnitude, zpow_eq_div, hone, Int.toNat_zero]
    simp
  · simp only [if_neg he, nearestDecimal]
    refine nearest_of_div_eq (Nat.pow_pos (by decide)) hpos ?_
    have hone : Nat.pow 2 (exponent ordinal).toNat = 1 := by
      rw [show (exponent ordinal).toNat = 0 by omega]
    -- the power of five in the digits cancels against the one in the power of ten
    have hten : Nat.pow 10 (-exponent ordinal).toNat =
        Nat.pow 2 (-exponent ordinal).toNat * Nat.pow 5 (-exponent ordinal).toNat :=
      Nat.mul_pow 2 5 _
    have hfive : ((Nat.pow 5 (-exponent ordinal).toNat : Nat) : ℚ) ≠ 0 := by
      rw [hcast]
      positivity
    rw [magnitude, zpow_eq_div, hone, hten, Nat.cast_mul, Nat.cast_mul, Nat.cast_one,
      mul_div_mul_right _ _ hfive, mul_one_div]

/-- The decimal that is written was found on a grid, or has all digits. -/
theorem shortest_cases (ordinal : Nat) :
    (∃ digits, ∃ grid ∈ grids, shortest ordinal = (digits, grid) ∧
      nearestDecimal digits grid = ordinal) ∨ shortest ordinal = exact ordinal := by
  unfold shortest
  cases h : grids.findSome? (readingBack? ordinal) with
  | none => exact Or.inr rfl
  | some found =>
    obtain ⟨grid, hmem, hfound⟩ := List.exists_of_findSome?_eq_some h
    obtain ⟨digits, -, rfl⟩ := Option.map_eq_some_iff.mp hfound
    exact Or.inl ⟨digits, grid, hmem, rfl, readsBack_of_find hfound⟩

/-- **The decimal that is written reads back.** -/
theorem nearestDecimal_shortest {ordinal : Nat} (hpos : 0 < ordinal) :
    nearestDecimal (shortest ordinal).1 (shortest ordinal).2 = ordinal := by
  rcases shortest_cases ordinal with ⟨digits, grid, -, heq, hback⟩ | heq
  · rw [heq]
    exact hback
  · rw [heq]
    exact nearestDecimal_exact hpos

theorem shortest_fst_ne_zero {ordinal : Nat} (hpos : 0 < ordinal) : (shortest ordinal).1 ≠ 0 := by
  have hnearest : ∀ d, nearest 0 d = 0 := fun d => by simp [nearest, nearestReduced]
  have hzero : ∀ e, nearestDecimal 0 e = 0 := by
    intro e
    rw [nearestDecimal, Nat.zero_mul, hnearest, hnearest, ite_self]
  intro h
  have hback := nearestDecimal_shortest hpos
  rw [h, hzero] at hback
  omega

/-- The decimal that is written does not reach far beyond the point. -/
theorem shortest_snd_bounds (ordinal : Nat) :
    leastExponent ≤ (shortest ordinal).2 ∧ (shortest ordinal).2 ≤ 309 := by
  rcases shortest_cases ordinal with ⟨digits, grid, hmem, heq, -⟩ | heq
  · rw [heq]
    obtain ⟨i, hi, rfl⟩ := List.mem_map.mp hmem
    have hlt : i < 660 := List.mem_range.mp hi
    simp only [leastExponent]
    omega
  · have hleast : leastExponent ≤ exponent ordinal := by
      rcases significand_cases ordinal with ⟨-, -, he⟩ | ⟨-, -, he⟩ <;> omega
    rw [heq, exact]
    simp only [leastExponent] at hleast ⊢
    split <;> omega

/-! ### Decimals with zeros behind them -/

/-- Zeros behind the digits are made up for by the exponent. -/
theorem nearestDecimal_mul_pow (digits k : Nat) (e : Int) :
    nearestDecimal (digits * 10 ^ k) (e - k) = nearestDecimal digits e := by
  have hpos : ∀ i : Nat, 0 < 10 ^ i := fun i => Nat.pow_pos (by decide)
  have hspell : ∀ i : Nat, Nat.pow 10 i = 10 ^ i := fun _ => rfl
  simp only [nearestDecimal, hspell]
  by_cases he : 0 ≤ e
  · rw [if_pos he]
    by_cases hk : 0 ≤ e - k
    · have hadd : 10 ^ k * 10 ^ (e - k).toNat = 10 ^ e.toNat := by
        rw [← Nat.pow_add]
        congr 1
        omega
      rw [if_pos hk, Nat.mul_assoc, hadd]
    · have hadd : 10 ^ e.toNat * 10 ^ (-(e - k)).toNat = 10 ^ k := by
        rw [← Nat.pow_add]
        congr 1
        omega
      have hcancel := nearest_mul_right (digits * 10 ^ e.toNat) 1 (hpos (-(e - k)).toNat)
      rw [if_neg hk, ← hadd, ← Nat.mul_assoc]
      rwa [Nat.one_mul] at hcancel
  · have hadd : 10 ^ (-(e - k)).toNat = 10 ^ (-e).toNat * 10 ^ k := by
      rw [← Nat.pow_add]
      congr 1
      omega
    have hk : ¬ 0 ≤ e - k := by omega
    rw [if_neg he, if_neg hk, hadd]
    exact nearest_mul_right _ _ (hpos k)

/-- A decimal of a moderate size is read as the nearest number. -/
theorem ofDecimal?_of_bounds {digits ordinal : Nat} {e : Int} (negative : Bool) (hne : digits ≠ 0)
    (hlow : -farthest ≤ e) (hhigh : e ≤ farthest) (hnearest : nearestDecimal digits e = ordinal)
    (hlt : ordinal < overflow) : ofDecimal? negative digits e = some (.finite negative ordinal) := by
  have hsmall : ¬ (digits = 0 ∨ ((ofNat digits).length : Int) + e < -farthest) := by omega
  have hlarge : ¬ farthest < e := by omega
  unfold ofDecimal?
  rw [if_neg hsmall, if_neg hlarge]
  simp only [hnearest]
  rw [if_pos hlt]

/-- **The number is read from its digits with zeros behind them.** -/
theorem ofDecimal?_shortest {ordinal k : Nat} (negative : Bool) (hpos : 0 < ordinal)
    (hlt : ordinal < overflow) (hlow : -farthest ≤ (shortest ordinal).2 - k) :
    ofDecimal? negative ((shortest ordinal).1 * 10 ^ k) ((shortest ordinal).2 - k) =
      some (.finite negative ordinal) := by
  have hbounds := shortest_snd_bounds ordinal
  have hne : (shortest ordinal).1 * 10 ^ k ≠ 0 :=
    Nat.mul_ne_zero (shortest_fst_ne_zero hpos) (Nat.pow_pos (by decide)).ne'
  have hnearest : nearestDecimal ((shortest ordinal).1 * 10 ^ k) ((shortest ordinal).2 - k) =
      ordinal := by
    rw [nearestDecimal_mul_pow, nearestDecimal_shortest hpos]
  refine ofDecimal?_of_bounds negative hne hlow ?_ hnearest hlt
  simp only [farthest]
  omega

end Binary64
end DiceTower
