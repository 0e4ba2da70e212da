/-
# Dice expressions

An expression such as `2d6+3` asks for a number of dice of one kind and a
modifier added to their sum. It keeps the text it was written as. Its count,
sides and modifier are in range by construction, so its totals have a least
and a greatest value that can be written down at once.

Key definitions: `Expression`, `Expression.leastTotal`,
`Expression.greatestTotal`.
Key theorem: `Expression.leastTotal_le_greatestTotal`.
-/
import DiceTower.Text.Basic
import DiceTower.Number.Signed64

namespace DiceTower

/-- The least number of dice in an expression. -/
def minCount : Nat := 1

/-- The greatest number of dice in an expression. -/
def maxCount : Nat := 100

/-- The least number of sides of a die in an expression. -/
def minSides : Nat := 2

/-- The greatest number of sides of a die in an expression. -/
def maxSides : Nat := 1000

/-- A number of dice of one kind, and a modifier. -/
structure Expression where
  /-- How many dice are rolled. -/
  count : Nat
  /-- How many sides each die has. -/
  sides : Nat
  /-- What is added to the sum of the faces. -/
  modifier : Int
  /-- The expression as it was written. -/
  written : Text
  count_mem : minCount ≤ count ∧ count ≤ maxCount
  sides_mem : minSides ≤ sides ∧ sides ≤ maxSides
  modifier_fits : Signed64.Fits modifier
deriving DecidableEq

namespace Expression

/-- The total when every die shows 1. -/
def leastTotal (e : Expression) : Int := Signed64.add e.count e.modifier

/-- The total when every die shows its highest face. -/
def greatestTotal (e : Expression) : Int := Signed64.add (e.count * e.sides : Nat) e.modifier

theorem leastTotal_le_greatestTotal (e : Expression) : e.leastTotal ≤ e.greatestTotal := by
  apply Signed64.clamp_le_clamp
  have : e.count * 1 ≤ e.count * e.sides :=
    Nat.mul_le_mul_left _ (Nat.le_trans (by decide) e.sides_mem.1)
  omega

end Expression
end DiceTower
