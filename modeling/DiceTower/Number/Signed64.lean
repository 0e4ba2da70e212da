/-
# The signed 64-bit range

Modifiers, totals and the integers of a settings file lie between -2⁶³ and
2⁶³ - 1. Sums of totals saturate: one that leaves the range is cut to its
nearer end.

Key definitions: `Signed64.lowest`, `Signed64.highest`, `Signed64.Fits`,
`Signed64.clamp`, `Signed64.add`.
Key theorems: `Signed64.fits_clamp`, `Signed64.clamp_eq_self`,
`Signed64.clamp_le_clamp`.
-/

namespace DiceTower
namespace Signed64

/-- The least number of the range. -/
def lowest : Int := -9223372036854775808

/-- The greatest number of the range. -/
def highest : Int := 9223372036854775807

/-- The number lies in the range. -/
def Fits (n : Int) : Prop := lowest ≤ n ∧ n ≤ highest

instance (n : Int) : Decidable (Fits n) := inferInstanceAs (Decidable (_ ∧ _))

/-- The number of the range that is nearest to the given one. -/
def clamp (n : Int) : Int := max lowest (min n highest)

/-- The saturating sum. -/
def add (a b : Int) : Int := clamp (a + b)

theorem fits_clamp (n : Int) : Fits (clamp n) := by
  simp only [Fits, clamp, lowest, highest]; omega

theorem clamp_eq_self {n : Int} (h : Fits n) : clamp n = n := by
  simp only [Fits, clamp, lowest, highest] at *; omega

theorem clamp_le_clamp {a b : Int} (h : a ≤ b) : clamp a ≤ clamp b := by
  simp only [clamp, lowest, highest]; omega

end Signed64
end DiceTower
