/-
# Rolls

A result records an expression, the faces its dice showed, their sum (the
natural) and the total, which is the natural with the modifier added and
saturates at the ends of the signed 64-bit range. A roll is one result, a
pair of results of which one is kept, or a batch of results with their
saturating grand total.

A lone d20 is critical when it shows 20 or 1. The primary result of a roll is
the one a front end highlights: the only one, or the kept one; a batch has
none.

Key definitions: `Result.ofFaces`, `Kept.choose`, `Batch.ofResults`, `Roll`,
`Roll.primary`, `Roll.critical`.
Key theorems: `Kept.choose_of_total_eq`, `Batch.grandTotal_append`.
-/
import DiceTower.Dice.Expression

namespace DiceTower

/-! ### Results -/

/-- The sides of the die whose lone rolls can be critical. -/
def criticalSides : Nat := 20

/-- What a lone d20 shows at its ends. -/
inductive Critical where
  | success
  | failure
deriving DecidableEq

/-- The name of a critical. -/
def Critical.name : Critical → Text
  | success => "Success".toList
  | failure => "Failure".toList

/-- An expression and the faces it was rolled to. -/
structure Result where
  /-- The expression that was rolled. -/
  expression : Expression
  /-- The faces, in the order in which they were rolled. -/
  faces : List Nat
  /-- The sum of the faces. -/
  natural : Nat
  /-- The natural with the modifier added, saturating. -/
  total : Int
deriving DecidableEq

namespace Result

/-- The sum of faces. -/
def sumFaces (faces : List Nat) : Nat := faces.foldr (fun face sum => face + sum) 0

/-- The result of an expression whose dice show the given faces. -/
def ofFaces (e : Expression) (faces : List Nat) : Result where
  expression := e
  faces := faces
  natural := sumFaces faces
  total := Signed64.add (sumFaces faces) e.modifier

/-- A lone d20 that shows 20 succeeds, and one that shows 1 fails. -/
def critical (r : Result) : Option Critical :=
  if r.expression.count = 1 ∧ r.expression.sides = criticalSides then
    match r.faces.head? with
    | some face =>
      if face = criticalSides then some .success else if face = 1 then some .failure else none
    | none => none
  else none

/-! ### Checks of a result against its expression -/

/-- Every face is one of the die's. -/
def FacesInRange (r : Result) : Prop := ∀ face ∈ r.faces, 1 ≤ face ∧ face ≤ r.expression.sides

/-- The natural is the sum of the faces. -/
def NaturalIsSum (r : Result) : Prop := r.natural = sumFaces r.faces

/-- The total is the saturating sum of natural and modifier. -/
def TotalIsSum (r : Result) : Prop := r.total = Signed64.add r.natural r.expression.modifier

/-- The total lies between the least and the greatest that the expression allows. -/
def TotalInLimits (r : Result) : Prop :=
  r.expression.leastTotal ≤ r.total ∧ r.total ≤ r.expression.greatestTotal

instance (r : Result) : Decidable r.FacesInRange := inferInstanceAs (Decidable (∀ _ ∈ _, _))

instance (r : Result) : Decidable r.NaturalIsSum := inferInstanceAs (Decidable (_ = _))

instance (r : Result) : Decidable r.TotalIsSum := inferInstanceAs (Decidable (_ = _))

instance (r : Result) : Decidable r.TotalInLimits := inferInstanceAs (Decidable (_ ∧ _))

theorem totalIsSum_ofFaces (e : Expression) (faces : List Nat) : (ofFaces e faces).TotalIsSum := rfl

end Result

/-! ### Keeping one of two -/

/-- Which of two totals is kept. -/
inductive Policy where
  /-- The higher one. -/
  | advantage
  /-- The lower one. -/
  | disadvantage
deriving DecidableEq

/-- The name of a policy. -/
def Policy.name : Policy → Text
  | advantage => "advantage".toList
  | disadvantage => "disadvantage".toList

/-- Two results of which one is kept. -/
structure Kept where
  /-- The result that counts. -/
  chosen : Result
  /-- The result that was put aside. -/
  other : Result
  /-- The policy that chose. -/
  policy : Policy
deriving DecidableEq

namespace Kept

/-- Whether the policy keeps the first of two totals; it does so on a tie. -/
def KeepsFirst (policy : Policy) (first second : Int) : Prop :=
  match policy with
  | .advantage => second ≤ first
  | .disadvantage => first ≤ second

instance (policy : Policy) (first second : Int) : Decidable (KeepsFirst policy first second) := by
  unfold KeepsFirst; cases policy <;> infer_instance

/-- The policy's choice between two results, by their totals. -/
def choose (first second : Result) (policy : Policy) : Kept :=
  if KeepsFirst policy first.total second.total then ⟨first, second, policy⟩
  else ⟨second, first, policy⟩

/-- Whether the kept total is at least as good as the other, as the policy sees it. -/
def KeptRight (k : Kept) : Prop := KeepsFirst k.policy k.chosen.total k.other.total

instance (k : Kept) : Decidable k.KeptRight := inferInstanceAs (Decidable (KeepsFirst _ _ _))

/-- A tie keeps the first result under either policy. -/
theorem choose_of_total_eq {first second : Result} (h : first.total = second.total)
    (policy : Policy) : choose first second policy = ⟨first, second, policy⟩ := by
  cases policy <;> simp [choose, KeepsFirst, h]

/-- The choice is never the worse one. -/
theorem keptRight_choose (first second : Result) (policy : Policy) :
    (choose first second policy).KeptRight := by
  unfold choose KeptRight
  split
  · assumption
  · rename_i h
    cases policy <;> simp only [KeepsFirst] at h ⊢ <;> omega

end Kept

/-! ### Batches -/

/-- Several results and their grand total. -/
structure Batch where
  /-- The results, in the order of their expressions. -/
  results : List Result
  /-- The saturating sum of the totals, taken from left to right. -/
  grandTotal : Int
deriving DecidableEq

namespace Batch

/-- The saturating sum of totals, from left to right. -/
def sumTotals (start : Int) (results : List Result) : Int :=
  results.foldl (fun sum r => Signed64.add sum r.total) start

/-- The batch of the given results. -/
def ofResults (results : List Result) : Batch := ⟨results, sumTotals 0 results⟩

/-- The grand total goes on from where the first results left it. -/
theorem grandTotal_append (first second : List Result) :
    (ofResults (first ++ second)).grandTotal = sumTotals (ofResults first).grandTotal second :=
  List.foldl_append

end Batch

/-! ### Rolls -/

/-- What a request for dice comes to. -/
inductive Roll where
  /-- One expression. -/
  | simple (result : Result)
  /-- One expression rolled twice. -/
  | kept (pair : Kept)
  /-- Several expressions. -/
  | batch (batch : Batch)
deriving DecidableEq

namespace Roll

/-- The result that a front end highlights. -/
def primary : Roll → Option Result
  | simple result => some result
  | kept pair => some pair.chosen
  | batch _ => none

/-- The critical of the primary result. -/
def critical (roll : Roll) : Option Critical := roll.primary.bind Result.critical

/-- All results, the kept one before the other. -/
def results : Roll → List Result
  | simple result => [result]
  | kept pair => [pair.chosen, pair.other]
  | batch b => b.results

end Roll
end DiceTower
