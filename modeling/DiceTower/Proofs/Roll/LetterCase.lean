/-
# Rolls of texts in lower case

The case of a text has no say in what is rolled: a text in lower case is rolled
with the same faces to the same results and totals, or refused for the same
reason, and leaves the roller in the same state (`Roller.rollText_lower`,
`Roller.rollKept_lower`). Only the notations that the results keep are in
lower case (`Roll.lower`). A roll and the one in lower case have the same
critical and are written alike up to case.

Key definitions: `Result.lower`, `Roll.lower`.
Key theorems: `Roller.rollText_lower`, `Roller.rollKept_lower`,
`Roll.critical_lower`, `Roll.lower_render_lower`.
-/
import DiceTower.Proofs.Notation.LetterCase
import DiceTower.Proofs.Roll.Outcome
import DiceTower.Roll.Render

namespace DiceTower

open Text Notation

/-! ### Rolls in lower case -/

/-- The result with its expression in lower case. -/
def Result.lower (r : Result) : Result := { r with expression := r.expression.lower }

/-- The pair with both results in lower case. -/
def Kept.lower (pair : Kept) : Kept := ⟨pair.chosen.lower, pair.other.lower, pair.policy⟩

/-- The batch with all results in lower case. -/
def Batch.lower (b : Batch) : Batch := ⟨b.results.map Result.lower, b.grandTotal⟩

/-- The roll with all results in lower case. -/
def Roll.lower : Roll → Roll
  | simple result => simple result.lower
  | kept pair => kept pair.lower
  | batch b => batch b.lower

theorem Kept.choose_lower (first second : Result) (policy : Policy) :
    choose first.lower second.lower policy = (choose first second policy).lower := by
  unfold choose
  by_cases h : KeepsFirst policy first.total second.total
  · rw [if_pos h]
    exact if_pos h
  · rw [if_neg h]
    exact if_neg h

theorem Batch.sumTotals_lower (start : Int) (results : List Result) :
    sumTotals start (results.map Result.lower) = sumTotals start results := by
  unfold sumTotals
  rw [List.foldl_map]
  rfl

theorem Roll.ofResults_lower (results : List Result) :
    ofResults (results.map Result.lower) = (ofResults results).lower := by
  match results with
  | [] => rfl
  | [_] => rfl
  | first :: second :: rest =>
    have hbatch : Batch.ofResults ((first :: second :: rest).map Result.lower) =
        (Batch.ofResults (first :: second :: rest)).lower := by
      rw [Batch.ofResults, Batch.sumTotals_lower]
      rfl
    exact congrArg Roll.batch hbatch

/-! ### Rolling -/

namespace Roller

variable {σ : Type} (roller : Roller σ)

theorem rollAll_lower : ∀ (expressions : List Expression) (state : σ),
    roller.rollAll (expressions.map Expression.lower) state =
      ((roller.rollAll expressions state).1.map Result.lower, (roller.rollAll expressions state).2)
  | [], _ => rfl
  | e :: rest, state => by
    have hroll : roller.roll e.lower state = ((roller.roll e state).1.lower, (roller.roll e state).2) :=
      rfl
    simp only [List.map_cons, rollAll, hroll, rollAll_lower rest]

/-- **A token is rolled alike in lower case.** -/
theorem rollKept_lower (token : Text) (policy : Policy) (state : σ) :
    roller.rollKept (Text.lower token) policy state =
      (lowerOutcome Kept.lower (roller.rollKept token policy state).1,
        (roller.rollKept token policy state).2) := by
  unfold rollKept
  rw [Expression.parse_lower]
  cases Expression.parse token with
  | error e => rfl
  | ok e =>
    have htwice : roller.rollTwice e.lower policy state =
        ((roller.rollTwice e policy state).1.lower, (roller.rollTwice e policy state).2) := by
      refine Prod.ext ?_ rfl
      exact Kept.choose_lower (roller.roll e state).1 (roller.roll e (roller.roll e state).2).1 policy
    simp only [lowerOutcome, htwice]

/-- **A text is rolled alike in lower case.** -/
theorem rollText_lower (text : Text) (state : σ) :
    roller.rollText (Text.lower text) state =
      (lowerOutcome Roll.lower (roller.rollText text state).1, (roller.rollText text state).2) := by
  by_cases hne : tokens text = []
  · have hlower : tokens (Text.lower text) = [] := by
      rw [tokens_lower, hne]
      rfl
    rw [rollText_of_tokens_eq_nil _ hne, rollText_of_tokens_eq_nil _ hlower, trim_lower]
    rfl
  · have hlower : tokens (Text.lower text) ≠ [] := by
      rw [tokens_lower]
      exact fun h => hne (List.map_eq_nil_iff.mp h)
    cases hall : Expression.parseAll (tokens text) with
    | error e =>
      have hrefused : Expression.parseAll (tokens (Text.lower text)) = .error e.lower := by
        rw [tokens_lower, Expression.parseAll_lower, hall]
        rfl
      rw [rollText_of_error _ hall, rollText_of_error _ hrefused]
      rfl
    | ok expressions =>
      have hparsed : Expression.parseAll (tokens (Text.lower text)) =
          .ok (expressions.map Expression.lower) := by
        rw [tokens_lower, Expression.parseAll_lower, hall]
        rfl
      rw [rollText_of_ok _ hne hall, rollText_of_ok _ hlower hparsed, rollAll_lower,
        Roll.ofResults_lower]
      rfl

end Roller

/-! ### What is shown of a roll -/

namespace Roll

theorem results_lower (roll : Roll) : roll.lower.results = roll.results.map Result.lower := by
  cases roll <;> rfl

theorem critical_lower (roll : Roll) : roll.lower.critical = roll.critical := by
  cases roll <;> rfl

end Roll

theorem Result.lower_render_lower (r : Result) : Text.lower r.lower.render = Text.lower r.render := by
  have hwritten : Text.lower r.lower.expression.written = Text.lower r.expression.written :=
    lower_lower r.expression.written
  unfold Result.render
  simp only [lower_append, hwritten]
  rfl

theorem lower_renderResults_lower (results : List Result) :
    Text.lower (renderResults (results.map Result.lower)) = Text.lower (renderResults results) := by
  induction results with
  | nil => rfl
  | cons r rest ih =>
    rw [List.map_cons, renderResults, renderResults]
    simp only [lower_append, r.lower_render_lower, ih]

/-- **A roll is written alike in lower case.** -/
theorem Roll.lower_render_lower (roll : Roll) :
    Text.lower roll.lower.render = Text.lower roll.render := by
  cases roll with
  | simple result => exact result.lower_render_lower
  | kept pair =>
    show Text.lower pair.lower.render = Text.lower pair.render
    unfold Kept.render
    have hchosen := pair.chosen.lower_render_lower
    simp only [lower_append, Kept.lower, hchosen]
    rfl
  | batch b =>
    show Text.lower b.lower.render = Text.lower b.render
    unfold Batch.render
    simp only [lower_append, Batch.lower, lower_renderResults_lower]

end DiceTower
