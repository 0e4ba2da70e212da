/-
# Which of two rolls is kept

A policy compares totals, and totals saturate. As a natural is not negative
and a modifier lies in the signed range, a total can pass the upper end of the
range only, and the natural at which it does so is the same for both rolls. So
the policy compares the naturals, cut at that number (`Expression.cut`): two
rolls beyond it count as equal, and the first is kept.

Where no total saturates nothing is cut, and the policies keep the higher and
the lower natural. From one state of the roller they make the same two rolls;
they choose different ones unless the totals are equal, and then both keep the
first (`Kept.ByNaturals`).

Key definitions: `Expression.cut`, `Kept.ByNaturals`.
Key theorems: `Expression.add_eq_cut_add`, `Kept.chosen_eq_first_iff`,
`Kept.byNaturals_choose`, `Roller.policies_choose_by_naturals`.
-/
import DiceTower.Proofs.Roll.Regular

namespace DiceTower

open Text

/-! ### Naturals cut where the total saturates -/

namespace Expression

variable (e : Expression)

/-- The natural, but no more than takes the total to the end of the signed range. -/
def cut (natural : Nat) : Int := min natural (Signed64.highest - e.modifier)

/-- Only the upper end cuts a total, and it cuts the natural alike. -/
theorem add_eq_cut_add (natural : Nat) :
    Signed64.add natural e.modifier = e.cut natural + e.modifier := by
  have hfits : Signed64.Fits e.modifier := e.modifier_fits
  simp only [Signed64.Fits, Signed64.add, Signed64.clamp, Signed64.lowest, Signed64.highest, cut]
    at hfits ⊢
  omega

theorem cut_eq_self {natural : Nat} (h : Signed64.Fits (natural + e.modifier)) :
    e.cut natural = natural := by
  have hhigh : natural + e.modifier ≤ Signed64.highest := h.2
  unfold cut
  omega

end Expression

/-- The total is the cut natural with the modifier. -/
theorem Result.TotalIsSum.total_eq_cut_add {r : Result} (h : r.TotalIsSum) :
    r.total = r.expression.cut r.natural + r.expression.modifier := by
  rw [h, Expression.add_eq_cut_add]

/-- The natural that a policy is after. -/
def Policy.better (policy : Policy) (first second : Nat) : Nat :=
  match policy with
  | .advantage => max first second
  | .disadvantage => min first second

theorem Policy.better_eq_ite (policy : Policy) (first second : Nat) :
    policy.better first second =
      if Kept.KeepsFirst policy (first : Int) second then first else second := by
  cases policy with
  | advantage =>
    show max first second = if (second : Int) ≤ first then first else second
    split <;> omega
  | disadvantage =>
    show min first second = if (first : Int) ≤ second then first else second
    split <;> omega

namespace Kept

/-! ### The choice by totals -/

theorem keepsFirst_of_eq {policy : Policy} {first second : Int} (h : first = second) :
    KeepsFirst policy first second := by
  cases policy with
  | advantage => exact Int.le_of_eq h.symm
  | disadvantage => exact Int.le_of_eq h

/-- What is added to both totals has no say. -/
theorem keepsFirst_add_right {policy : Policy} {first second m : Int} :
    KeepsFirst policy (first + m) (second + m) ↔ KeepsFirst policy first second := by
  cases policy with
  | advantage => exact Int.add_le_add_iff_right m
  | disadvantage => exact Int.add_le_add_iff_right m

/-- The first result is chosen exactly if the policy keeps the first total. -/
theorem chosen_eq_first_iff {first second : Result} {policy : Policy} :
    (choose first second policy).chosen = first ↔ KeepsFirst policy first.total second.total := by
  rcases choose_cases first second policy with ⟨hkeep, h⟩ | ⟨hkeep, h⟩
  · rw [h]
    exact ⟨fun _ => hkeep, fun _ => rfl⟩
  · rw [h]
    refine ⟨fun hsame => ?_, fun hkeeps => absurd hkeeps hkeep⟩
    have hsame : second = first := hsame
    exact keepsFirst_of_eq (congrArg Result.total hsame.symm)

theorem perm_choose (first second : Result) (policy : Policy) :
    [(choose first second policy).chosen, (choose first second policy).other].Perm
      [first, second] := by
  rcases choose_cases first second policy with ⟨-, h⟩ | ⟨-, h⟩
  · rw [h]
  · rw [h]
    exact List.Perm.swap first second []

/-- Of two different totals the policies keep different ones. -/
theorem keepsFirst_disadvantage_iff {first second : Int} (h : first ≠ second) :
    KeepsFirst .disadvantage first second ↔ ¬ KeepsFirst .advantage first second := by
  show first ≤ second ↔ ¬ second ≤ first
  omega

theorem choose_disadvantage_of_ne {first second : Result} (h : first.total ≠ second.total) :
    (choose first second .disadvantage).chosen = (choose first second .advantage).other ∧
      (choose first second .disadvantage).other = (choose first second .advantage).chosen := by
  have hopposed := keepsFirst_disadvantage_iff h
  rcases choose_cases first second .advantage with ⟨hkeep, hadvantage⟩ | ⟨hkeep, hadvantage⟩
  · have hdisadvantage : choose first second .disadvantage = ⟨second, first, .disadvantage⟩ :=
      if_neg fun hkeeps => hopposed.mp hkeeps hkeep
    rw [hadvantage, hdisadvantage]
    exact ⟨rfl, rfl⟩
  · have hdisadvantage : choose first second .disadvantage = ⟨first, second, .disadvantage⟩ :=
      if_pos (hopposed.mpr hkeep)
    rw [hadvantage, hdisadvantage]
    exact ⟨rfl, rfl⟩

/-! ### The choice by naturals -/

/-- How the two policies choose between two rolls of an expression, told by the
naturals of the rolls. -/
structure ByNaturals (e : Expression) (first second : Result) (advantage disadvantage : Kept) :
    Prop where
  /-- The chosen and the other result are the two rolls, each once. -/
  perm_advantage : [advantage.chosen, advantage.other].Perm [first, second]
  perm_disadvantage : [disadvantage.chosen, disadvantage.other].Perm [first, second]
  /-- The cut naturals decide whether the first roll is chosen. -/
  advantage_iff : advantage.chosen = first ↔ e.cut second.natural ≤ e.cut first.natural
  disadvantage_iff : disadvantage.chosen = first ↔ e.cut first.natural ≤ e.cut second.natural
  /-- Where neither total saturates, a roll of the higher or the lower natural is chosen. -/
  natural_eq : Signed64.Fits (first.natural + e.modifier) →
    Signed64.Fits (second.natural + e.modifier) →
      advantage.chosen.natural = max first.natural second.natural ∧
        disadvantage.chosen.natural = min first.natural second.natural
  /-- Where the totals differ, the second policy swaps the pair of the first. -/
  swapped : first.total ≠ second.total →
    disadvantage.chosen = advantage.other ∧ disadvantage.other = advantage.chosen
  /-- Where the totals are equal, both choose the first roll. -/
  tied : first.total = second.total → advantage.chosen = first ∧ disadvantage.chosen = first

section

variable {e : Expression} {first second : Result}

/-- The policy keeps the first total exactly if it keeps the first cut natural. -/
theorem keepsFirst_total_iff (hfirst : first.TotalIsSum) (hsecond : second.TotalIsSum)
    (efirst : first.expression = e) (esecond : second.expression = e) (policy : Policy) :
    KeepsFirst policy first.total second.total ↔
      KeepsFirst policy (e.cut first.natural) (e.cut second.natural) := by
  rw [hfirst.total_eq_cut_add, hsecond.total_eq_cut_add, efirst, esecond, keepsFirst_add_right]

/-- A policy that compares the naturals like the totals chooses the natural it is after. -/
theorem natural_chosen {policy : Policy} (h : KeepsFirst policy first.total second.total ↔
      KeepsFirst policy (first.natural : Int) second.natural) :
    (choose first second policy).chosen.natural = policy.better first.natural second.natural := by
  rw [Policy.better_eq_ite]
  rcases choose_cases first second policy with ⟨hkeep, hchoice⟩ | ⟨hkeep, hchoice⟩
  · rw [hchoice, if_pos (h.mp hkeep)]
  · rw [hchoice, if_neg fun hkeeps => hkeep (h.mpr hkeeps)]

theorem byNaturals_choose (hfirst : first.TotalIsSum) (hsecond : second.TotalIsSum)
    (efirst : first.expression = e) (esecond : second.expression = e) :
    ByNaturals e first second (choose first second .advantage)
      (choose first second .disadvantage) where
  perm_advantage := perm_choose first second .advantage
  perm_disadvantage := perm_choose first second .disadvantage
  advantage_iff :=
    chosen_eq_first_iff.trans (keepsFirst_total_iff hfirst hsecond efirst esecond .advantage)
  disadvantage_iff :=
    chosen_eq_first_iff.trans (keepsFirst_total_iff hfirst hsecond efirst esecond .disadvantage)
  natural_eq hfits hfits' := by
    have htotals := keepsFirst_total_iff hfirst hsecond efirst esecond
    rw [e.cut_eq_self hfits, e.cut_eq_self hfits'] at htotals
    exact ⟨natural_chosen (htotals .advantage), natural_chosen (htotals .disadvantage)⟩
  swapped := choose_disadvantage_of_ne
  tied h := ⟨chosen_eq_first_iff.mpr (keepsFirst_of_eq h),
    chosen_eq_first_iff.mpr (keepsFirst_of_eq h)⟩

end

end Kept

namespace Roller

variable {σ : Type} (roller : Roller σ)

/-- A token that stands for an expression is rolled twice under a policy. -/
theorem rollKept_of_ok {token : Text} {e : Expression} (h : Expression.parse token = .ok e)
    (policy : Policy) (state : σ) :
    roller.rollKept token policy state =
      (.ok (Kept.choose (roller.roll e state).1 (roller.roll e (roller.roll e state).2).1 policy),
        (roller.roll e (roller.roll e state).2).2) := by
  simp only [rollKept, h, rollTwice]

/-- **The policies compare cut naturals.** Either policy rolls the expression of
a token twice, from one state of the roller to the same two rolls, and chooses
between them by their naturals, cut where the total saturates. -/
theorem policies_choose_by_naturals {token : Text} {e : Expression}
    (h : Expression.parse token = .ok e) (state : σ) :
    ∃ first second middle final advantage disadvantage,
      roller.roll e state = (first, middle) ∧ roller.roll e middle = (second, final) ∧
      roller.rollKept token .advantage state = (.ok advantage, final) ∧
      roller.rollKept token .disadvantage state = (.ok disadvantage, final) ∧
      Kept.ByNaturals e first second advantage disadvantage := by
  refine ⟨_, _, _, _, _, _, rfl, rfl, roller.rollKept_of_ok h .advantage state,
    roller.rollKept_of_ok h .disadvantage state, ?_⟩
  exact Kept.byNaturals_choose (Result.totalIsSum_ofFaces e _) (Result.totalIsSum_ofFaces e _)
    rfl rfl

/-- Two rolls of 2d6 with a modifier that takes a natural above 7 to the end of
the range: of 8 and 12 the first is kept under either policy. -/
theorem policies_keep_first_beyond_cut :
    ∃ e first second middle final advantage disadvantage,
      Expression.parse "2d6+9223372036854775800".toList = .ok e ∧
      Script.roller.roll e (Script.ofFaces [2, 6, 6, 6]) = (first, middle) ∧
      Script.roller.roll e middle = (second, final) ∧
      Kept.ByNaturals e first second advantage disadvantage ∧
      first.natural = 8 ∧ second.natural = 12 ∧ e.cut 8 = 7 ∧ e.cut 12 = 7 ∧
      advantage.chosen = first ∧ disadvantage.chosen = first := by
  obtain ⟨e, he, hcut, hcut', hnatural, hnatural'⟩ :
      ∃ e, Expression.parse "2d6+9223372036854775800".toList = .ok e ∧ e.cut 8 = 7 ∧ e.cut 12 = 7 ∧
        (Script.roller.roll e (Script.ofFaces [2, 6, 6, 6])).1.natural = 8 ∧
        (Script.roller.roll e (Script.roller.roll e (Script.ofFaces [2, 6, 6, 6])).2).1.natural =
          12 := ⟨_, rfl, rfl, rfl, rfl, rfl⟩
  obtain ⟨first, second, middle, final, advantage, disadvantage, hfirst, hsecond, -, -, hchoice⟩ :=
    policies_choose_by_naturals Script.roller he (Script.ofFaces [2, 6, 6, 6])
  rw [hfirst] at hnatural hnatural'
  rw [hsecond] at hnatural'
  refine ⟨e, first, second, middle, final, advantage, disadvantage, he, hfirst, hsecond, hchoice,
    hnatural, hnatural', hcut, hcut', ?_, ?_⟩
  · rw [hchoice.advantage_iff, hnatural, hnatural', hcut, hcut']
  · rw [hchoice.disadvantage_iff, hnatural, hnatural', hcut, hcut']

end Roller
end DiceTower
