/-
# Binary floating-point numbers and their decimals

The finite numbers of the 64-bit binary format are a whole number below 2⁵³
times a power of two. Those of one sign are counted in the order of their
size; the ordinal of a number is its place in that count. A decimal is read
as the nearest of them, a tie going to the even ordinal, and a number is
written as the shortest decimal that reads back: the decimal on the coarsest
grid of a power of ten that does, and of two on that grid the nearer. Of two
that are equally near the larger is written.

Decimals are written in positional notation, with at least one digit on
either side of the point.

Key definitions: `Binary64`, `Binary64.InRange`, `Binary64.nearest`,
`Binary64.ofDecimal?`, `Binary64.shortest`, `Binary64.render`.
Key theorems: `Binary64.nearest_mul_right`, `Binary64.readsBack_of_find`.
-/
import DiceTower.Text.Digits

namespace DiceTower

/-- A number of the 64-bit binary format. -/
inductive Binary64 where
  /-- A finite number: its sign, and its place among those of one sign. -/
  | finite (negative : Bool) (ordinal : Nat)
  /-- Larger than every finite number. -/
  | infinite (negative : Bool)
  /-- No number. -/
  | nan (negative : Bool)
deriving DecidableEq

namespace Binary64

open Text

/-! ### From decimals -/

/-- The power 2⁵². -/
def half : Nat := 4503599627370496

/-- The first ordinal that is no finite number's. -/
def overflow : Nat := 2047 * half

/-- A finite number has the ordinal of one. -/
def InRange : Binary64 → Prop
  | finite _ ordinal => ordinal < overflow
  | _ => True

/-- The least exponent of two. -/
def leastExponent : Int := -1074

/-- The quotient rounded to the nearest whole number, a tie to the even one. -/
def roundQuotient (n d : Nat) : Nat :=
  let q := n / d
  let twice := 2 * (n % d)
  if twice < d then q
  else if d < twice then q + 1
  else if q % 2 = 0 then q else q + 1

/-- The fraction scaled by a power of two and rounded. -/
def scaled (n d : Nat) (exponent : Int) : Nat :=
  if 0 ≤ exponent then roundQuotient n (d * Nat.pow 2 exponent.toNat)
  else roundQuotient (n * Nat.pow 2 (-exponent).toNat) d

/-- The exponent of two at which a fraction has fifty-three binary digits, but
no less than the least one. -/
def exponentOf (n d : Nat) : Int :=
  let guess : Int := (Nat.log2 n : Int) - (Nat.log2 d : Int) - 52
  let fits : Bool :=
    if 0 ≤ guess then half * (d * Nat.pow 2 guess.toNat) ≤ n
    else half * d ≤ n * Nat.pow 2 (-guess).toNat
  max leastExponent (if fits then guess else guess - 1)

/-- The ordinal of the number nearest to a fraction in lowest terms. -/
def nearestReduced (n d : Nat) : Nat :=
  if n = 0 then 0
  else
    let exponent := exponentOf n d
    (exponent - leastExponent).toNat * half + scaled n d exponent

/-- The ordinal of the number nearest to a fraction. It is `overflow` or more
for a fraction beyond the finite numbers. -/
def nearest (n d : Nat) : Nat := nearestReduced (n / Nat.gcd n d) (d / Nat.gcd n d)

/-- Terms that cancel have no say. -/
theorem nearest_mul_right (n d : Nat) {k : Nat} (hk : 0 < k) :
    nearest (n * k) (d * k) = nearest n d := by
  simp only [nearest, Nat.gcd_mul_right]
  rw [Nat.mul_div_mul_right _ _ hk, Nat.mul_div_mul_right _ _ hk]

/-- The ordinal of the number nearest to the decimal `digits · 10 ^ exponent`. -/
def nearestDecimal (digits : Nat) (exponent : Int) : Nat :=
  if 0 ≤ exponent then nearest (digits * Nat.pow 10 exponent.toNat) 1
  else nearest digits (Nat.pow 10 (-exponent).toNat)

/-- A bound beyond which the size of a decimal alone decides what it is read as. -/
def farthest : Int := 1100

/-- The number nearest to a decimal, unless that leaves the finite numbers.
A decimal of an extreme size is not expanded. -/
def ofDecimal? (negative : Bool) (digits : Nat) (exponent : Int) : Option Binary64 :=
  if digits = 0 ∨ (ofNat digits).length + exponent < -farthest then some (.finite negative 0)
  else if farthest < exponent then none
  else
    let ordinal := nearestDecimal digits exponent
    if ordinal < overflow then some (.finite negative ordinal) else none

/-! ### To decimals -/

/-- The whole number that is multiplied by the power of two. -/
def significand (ordinal : Nat) : Nat :=
  if ordinal < half then ordinal else half + ordinal % half

/-- The exponent of the power of two. -/
def exponent (ordinal : Nat) : Int :=
  if ordinal < half then leastExponent else leastExponent + (ordinal / half : Nat) - 1

/-- The whole part of a number counted in units of a power of ten, and whether
the next multiple is at least as near. -/
def onGrid (ordinal : Nat) (grid : Int) : Nat × Bool :=
  let e := exponent ordinal
  let n := significand ordinal * Nat.pow 2 e.toNat * Nat.pow 10 (-grid).toNat
  let d := Nat.pow 2 (-e).toNat * Nat.pow 10 grid.toNat
  (n / d, decide (d ≤ 2 * (n % d)))

/-- The decimal on a grid that reads back as the number, if there is one; of
two, the nearer, and the larger where both are equally near. -/
def readingBack? (ordinal : Nat) (grid : Int) : Option (Nat × Int) :=
  let (below, aboveFirst) := onGrid ordinal grid
  let candidates := if aboveFirst then [below + 1, below] else [below, below + 1]
  (candidates.find? fun digits => nearestDecimal digits grid == ordinal).map (·, grid)

/-- The grids on which the shortest decimal can lie, from coarse to fine. -/
def grids : List Int := (List.range 660).map fun (i : Nat) => 309 - (i : Int)

/-- The decimal of a number with all its digits. -/
def exact (ordinal : Nat) : Nat × Int :=
  let e := exponent ordinal
  if 0 ≤ e then (significand ordinal * Nat.pow 2 e.toNat, 0)
  else (significand ordinal * Nat.pow 5 (-e).toNat, e)

/-- The shortest decimal that reads back as the number. -/
def shortest (ordinal : Nat) : Nat × Int :=
  (grids.findSome? (readingBack? ordinal)).getD (exact ordinal)

/-- What is found on a grid reads back. -/
theorem readsBack_of_find {ordinal digits : Nat} {grid e : Int}
    (h : readingBack? ordinal grid = some (digits, e)) : nearestDecimal digits e = ordinal := by
  simp only [readingBack?, Option.map_eq_some_iff, Prod.mk.injEq] at h
  obtain ⟨found, hf, rfl, rfl⟩ := h
  simpa using List.find?_some hf

/-! ### Text -/

/-- The decimal `digits · 10 ^ exponent` in positional notation. -/
def positional (digits : Nat) (exponent : Int) : Text :=
  if 0 ≤ exponent then ofNat digits ++ List.replicate exponent.toNat '0' ++ ['.', '0']
  else
    let places := (-exponent).toNat
    let run := ofNat digits
    let padded := List.replicate (places + 1 - run.length) '0' ++ run
    padded.take (padded.length - places) ++ '.' :: padded.drop (padded.length - places)

/-- A minus sign for negative numbers. -/
def renderSign (negative : Bool) : Text := if negative then ['-'] else []

/-- The text of a number. -/
def render : Binary64 → Text
  | finite negative ordinal =>
    renderSign negative ++
      (if ordinal = 0 then "0.0".toList
      else positional (shortest ordinal).1 (shortest ordinal).2)
  | infinite negative => renderSign negative ++ "inf".toList
  | nan negative => renderSign negative ++ "nan".toList

end Binary64
end DiceTower
