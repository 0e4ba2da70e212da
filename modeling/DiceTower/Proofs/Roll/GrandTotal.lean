/-
# When a grand total is the sum of its totals

A grand total is summed from left to right, and a sum that leaves the signed
range is cut before the next total is added. So it is the exact sum where the
sums on the way fit as well (`Signed64.Steady`), and it need not be where only
the last one does: with the totals 2⁶³ - 1, 1 and -1 the one in the middle is
lost, and a batch of the same results in another order keeps it.

Numbers of one sign are cut once, at the end. Hence all orders of a batch
come to the exact sum just when its totals of either sign do by themselves:
the batch could be rolled with all of them in front.

Key definitions: `Signed64.Steady`, `Signed64.gains`, `Signed64.losses`,
`Batch.totals`.
Key theorems: `Signed64.foldl_add_of_steady`, `Signed64.foldl_add_of_sign`,
`Signed64.steady_of_sides`, `Batch.grandTotal_is_sum`.
-/
import DiceTower.Proofs.Roll.Regular
import Mathlib.Algebra.Order.Ring.Int

namespace DiceTower

namespace Signed64

/-! ### Sums on the way -/

/-- The sum of every first part of the numbers lies in the range. -/
def Steady (ns : List Int) : Prop := ∀ part, part <+: ns → Fits part.sum

/-- No two of the numbers have different signs. -/
def OneSign (ns : List Int) : Prop := (∀ n ∈ ns, 0 ≤ n) ∨ (∀ n ∈ ns, n ≤ 0)

theorem sum_nonpos {ns : List Int} (h : ∀ n ∈ ns, n ≤ 0) : ns.sum ≤ 0 := by
  have hsum := List.sum_le_card_nsmul ns 0 h
  rwa [nsmul_zero] at hsum

theorem OneSign.tail {n : Int} {rest : List Int} (h : OneSign (n :: rest)) : OneSign rest :=
  h.imp (fun h m hm => h m (List.mem_cons_of_mem n hm))
    (fun h m hm => h m (List.mem_cons_of_mem n hm))

/-- The first number has the sign of the sum of the others. -/
theorem OneSign.cons_sum {n : Int} {rest : List Int} (h : OneSign (n :: rest)) :
    0 ≤ n ∧ 0 ≤ rest.sum ∨ n ≤ 0 ∧ rest.sum ≤ 0 := by
  refine h.imp (fun h => ?_) (fun h => ?_)
  · obtain ⟨hn, hrest⟩ := List.forall_mem_cons.mp h
    exact ⟨hn, List.sum_nonneg hrest⟩
  · obtain ⟨hn, hrest⟩ := List.forall_mem_cons.mp h
    exact ⟨hn, sum_nonpos hrest⟩

/-- Where no sum on the way leaves the range, nothing is cut. -/
theorem foldl_add_of_steady : ∀ {start : Int} {ns : List Int},
    (∀ part, part <+: ns → Fits (start + part.sum)) → ns.foldl add start = start + ns.sum
  | start, [], _ => (add_zero start).symm
  | start, n :: rest, h => by
    have hfits : Fits (start + n) := by
      have hone := h [n] (List.cons_prefix_cons.mpr ⟨rfl, List.nil_prefix⟩)
      rwa [List.sum_singleton] at hone
    have hrest : ∀ part, part <+: rest → Fits (start + n + part.sum) := by
      intro part hpart
      have hcons := h (n :: part) (List.cons_prefix_cons.mpr ⟨rfl, hpart⟩)
      rwa [List.sum_cons, ← add_assoc] at hcons
    calc (n :: rest).foldl add start = rest.foldl add (start + n) := by
          rw [List.foldl_cons, add, clamp_eq_self hfits]
      _ = start + n + rest.sum := foldl_add_of_steady hrest
      _ = start + (n :: rest).sum := by rw [List.sum_cons, add_assoc]

/-- Numbers of one sign leave the range at most once, so one cut will do. -/
theorem foldl_add_of_sign : ∀ {start : Int} {ns : List Int}, Fits start → OneSign ns →
    ns.foldl add start = clamp (start + ns.sum)
  | start, [], hstart, _ => by rw [List.foldl_nil, List.sum_nil, add_zero, clamp_eq_self hstart]
  | start, n :: rest, hstart, h => by
    have hsign : 0 ≤ n ∧ 0 ≤ rest.sum ∨ n ≤ 0 ∧ rest.sum ≤ 0 := h.cons_sum
    have hnext : Fits (add start n) := fits_clamp _
    rw [List.foldl_cons, foldl_add_of_sign hnext h.tail, List.sum_cons]
    simp only [Fits, add, clamp, lowest, highest] at hstart ⊢
    omega

/-- Numbers of one sign and then others of one sign are cut twice. -/
theorem foldl_add_append {ns ms : List Int} (hns : OneSign ns) (hms : OneSign ms) :
    (ns ++ ms).foldl add 0 = clamp (clamp ns.sum + ms.sum) := by
  have hfirst : ns.foldl add 0 = clamp ns.sum := by
    rw [foldl_add_of_sign (by decide) hns, zero_add]
  rw [List.foldl_append, hfirst, foldl_add_of_sign (fits_clamp _) hms]

/-! ### Numbers of either sign -/

/-- The sum of the numbers that are not negative. -/
def gains (ns : List Int) : Int := (ns.filter fun n => 0 ≤ n).sum

/-- The sum of the negative numbers. -/
def losses (ns : List Int) : Int := (ns.filter fun n => !decide (0 ≤ n)).sum

theorem nonneg_of_mem_filter (ns : List Int) : ∀ n ∈ ns.filter fun n => 0 ≤ n, 0 ≤ n :=
  fun _ hn => of_decide_eq_true (List.mem_filter.mp hn).2

theorem nonpos_of_mem_filter (ns : List Int) :
    ∀ n ∈ ns.filter fun n => !decide (0 ≤ n), n ≤ 0 := by
  intro n hn
  have hneg : ¬0 ≤ n := by simpa using (List.mem_filter.mp hn).2
  omega

theorem gains_nonneg (ns : List Int) : 0 ≤ gains ns := List.sum_nonneg (nonneg_of_mem_filter ns)

theorem losses_nonpos (ns : List Int) : losses ns ≤ 0 := sum_nonpos (nonpos_of_mem_filter ns)

theorem gains_append (ns ms : List Int) : gains (ns ++ ms) = gains ns + gains ms := by
  unfold gains
  rw [List.filter_append, List.sum_append]

theorem losses_append (ns ms : List Int) : losses (ns ++ ms) = losses ns + losses ms := by
  unfold losses
  rw [List.filter_append, List.sum_append]

theorem gains_add_losses (ns : List Int) : gains ns + losses ns = ns.sum := by
  unfold gains losses
  rw [← List.sum_append, (List.filter_append_perm _ ns).sum_eq]

theorem gains_perm {ns ms : List Int} (h : ns.Perm ms) : gains ns = gains ms := (h.filter _).sum_eq

theorem losses_perm {ns ms : List Int} (h : ns.Perm ms) : losses ns = losses ms :=
  (h.filter _).sum_eq

/-- Where the numbers of either sign sum up inside the range, so does every first part. -/
theorem steady_of_sides {ns : List Int} (hgains : gains ns ≤ highest)
    (hlosses : lowest ≤ losses ns) : Steady ns := by
  rintro part ⟨rest, rfl⟩
  rw [gains_append] at hgains
  rw [losses_append] at hlosses
  have hsum := gains_add_losses part
  have hpart := And.intro (gains_nonneg part) (losses_nonpos part)
  have hrest := And.intro (gains_nonneg rest) (losses_nonpos rest)
  unfold Fits
  omega

/-- Two cuts are harmless with either sign in front only if each sign fits by itself. -/
theorem sides_fit_of_cuts {gained lost : Int} (hlost : lost ≤ 0)
    (hfirst : clamp (clamp gained + lost) = gained + lost)
    (hsecond : clamp (clamp lost + gained) = gained + lost) :
    gained ≤ highest ∧ lowest ≤ lost := by
  simp only [clamp, lowest, highest] at *
  omega

end Signed64

/-! ### Grand totals -/

/-- A roll of several results is the batch of these. -/
theorem Roll.batch_eq_ofResults {results : List Result} {b : Batch}
    (h : batch b = ofResults results) : b = Batch.ofResults b.results := by
  match results with
  | [] =>
    obtain rfl : b = Batch.ofResults [] := Roll.batch.inj h
    rfl
  | [_] => cases h
  | first :: second :: rest =>
    obtain rfl : b = Batch.ofResults (first :: second :: rest) := Roll.batch.inj h
    rfl

namespace Batch

open Signed64

/-- The totals of results. -/
def totals (results : List Result) : List Int := results.map (·.total)

theorem totals_append (first second : List Result) :
    totals (first ++ second) = totals first ++ totals second := List.map_append

theorem totals_filter (p : Int → Bool) (results : List Result) :
    totals (results.filter fun r => p r.total) = (totals results).filter p := List.filter_map.symm

theorem totals_perm {results others : List Result} (h : others.Perm results) :
    (totals others).Perm (totals results) := h.map _

theorem grandTotal_ofResults (results : List Result) :
    (ofResults results).grandTotal = (totals results).foldl add 0 := List.foldl_map.symm

theorem grandTotal_of_steady {results : List Result} (h : Steady (totals results)) :
    (ofResults results).grandTotal = (totals results).sum := by
  have hfits : ∀ part, part <+: totals results → Fits (0 + part.sum) := by
    intro part hpart
    rw [zero_add]
    exact h part hpart
  rw [grandTotal_ofResults, foldl_add_of_steady hfits, zero_add]

/-- Two orders show it: those with the results of one sign of total in front. -/
theorem sides_fit_of_orders {results : List Result} (h : ∀ others, others.Perm results →
      (ofResults others).grandTotal = (totals results).sum) :
    gains (totals results) ≤ highest ∧ lowest ≤ losses (totals results) := by
  let gaining := results.filter fun r => decide (0 ≤ r.total)
  let losing := results.filter fun r => !decide (0 ≤ r.total)
  have hperm : (gaining ++ losing).Perm results := List.filter_append_perm _ results
  have hgaining : totals gaining = (totals results).filter fun n => 0 ≤ n :=
    totals_filter (fun n => decide (0 ≤ n)) results
  have hlosing : totals losing = (totals results).filter fun n => !decide (0 ≤ n) :=
    totals_filter (fun n => !decide (0 ≤ n)) results
  have hpos : OneSign (totals gaining) := Or.inl (hgaining ▸ nonneg_of_mem_filter _)
  have hneg : OneSign (totals losing) := Or.inr (hlosing ▸ nonpos_of_mem_filter _)
  have hfirst := h (gaining ++ losing) hperm
  have hsecond := h (losing ++ gaining) (List.perm_append_comm.trans hperm)
  rw [grandTotal_ofResults, totals_append, foldl_add_append hpos hneg] at hfirst
  rw [grandTotal_ofResults, totals_append, foldl_add_append hneg hpos] at hsecond
  rw [hgaining, hlosing, ← gains_add_losses (totals results)] at hfirst hsecond
  exact sides_fit_of_cuts (losses_nonpos _) hfirst hsecond

/-- **Grand totals.** The grand total of a batch is the exact sum of its
totals if the sums of its first parts all lie in the signed range; two orders
of which this holds have the same grand total. Every order has the exact sum
just when the totals that are not negative sum up to at most the greatest
number, and the negative ones to at least the least. Each batch that a request
comes to is the batch of its results. -/
theorem grandTotal_is_sum (results : List Result) :
    (Steady (totals results) → (ofResults results).grandTotal = (totals results).sum) ∧
    (∀ others, others.Perm results → Steady (totals results) → Steady (totals others) →
      (ofResults others).grandTotal = (ofResults results).grandTotal) ∧
    ((∀ others, others.Perm results → (ofResults others).grandTotal = (totals results).sum) ↔
      gains (totals results) ≤ highest ∧ lowest ≤ losses (totals results)) ∧
    (∀ {σ : Type} (roller : Roller σ) (state : σ) (batch : Batch),
      roller.Made state (.batch batch) → batch = ofResults batch.results) := by
  have hsum : ∀ others, others.Perm results → (totals others).sum = (totals results).sum := by
    intro others hperm
    exact (totals_perm hperm).sum_eq
  refine ⟨grandTotal_of_steady, ?_, ⟨sides_fit_of_orders, ?_⟩, ?_⟩
  · intro others hperm hsteady hothers
    rw [grandTotal_of_steady hsteady, grandTotal_of_steady hothers, hsum others hperm]
  · rintro ⟨hgains, hlosses⟩ others hperm
    rw [← gains_perm (totals_perm hperm)] at hgains
    rw [← losses_perm (totals_perm hperm)] at hlosses
    rw [grandTotal_of_steady (steady_of_sides hgains hlosses), hsum others hperm]
  · intro σ roller state batch hmade
    cases hmade with
    | text hroll =>
      obtain ⟨expressions, -, hmade⟩ := roller.exists_of_rollText_eq_ok hroll
      exact Roll.batch_eq_ofResults hmade

/-- One text and the same tokens in another order, with a script that shows 1
on every die: the totals are 2⁶³ - 1, 1 and -1, their sum is 2⁶³ - 1, and the
first batch misses it by one. -/
theorem grandTotal_misses_sum :
    ∃ batch swapped,
      (Script.roller.rollText "d2+9223372036854775806 d2 d2-2".toList (Script.ofFaces [1])).1 =
        .ok (.batch batch) ∧
      (Script.roller.rollText "d2+9223372036854775806 d2-2 d2".toList (Script.ofFaces [1])).1 =
        .ok (.batch swapped) ∧
      swapped.results.Perm batch.results ∧
      totals batch.results = [9223372036854775807, 1, -1] ∧ Fits (totals batch.results).sum ∧
      batch.grandTotal ≠ (totals batch.results).sum ∧ swapped.grandTotal ≠ batch.grandTotal := by
  refine ⟨_, _, rfl, rfl, ?_, rfl, ?_, ?_, ?_⟩
  · exact List.Perm.cons _ (List.Perm.swap _ _ _)
  · decide
  · decide
  · decide

end Batch
end DiceTower
