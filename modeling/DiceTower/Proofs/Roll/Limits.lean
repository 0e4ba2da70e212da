/-
# The limits of an expression are exact

The totals of an expression are the numbers between its least and its greatest
total, and every one of them. None lies outside, as each face lies between 1
and the sides, and cutting to the signed range keeps the order. None is
missed: the naturals from the number of dice up to the sum of all sides are
consecutive, their totals stay consecutive when they are cut at the upper end,
and faces with a given natural are found by letting each die take as much as
leaves 1 for every die behind it (`Script.spread`).

A script whose faces fit the dice replays them as they are
(`Script.rollDice_ofFaces`), so these faces are rolled by their own script.

Key definition: `Script.spread`.
Key theorems: `Script.rollDice_eq`, `Result.Regular.totalInLimits`,
`Expression.exists_natural_of_mem_limits`, `Expression.totals_fill_limits`.
-/
import DiceTower.Proofs.Roll.Regular

namespace DiceTower

namespace Script

/-! ### Replaying a script -/

theorem advance_of_lt {faces : List Nat} {place : Nat} (hne : faces ≠ [])
    (h : place + 1 < 18446744073709551616) : advance ⟨faces, place⟩ = ⟨faces, place + 1⟩ := by
  rw [advance, if_neg hne, Nat.mod_eq_of_lt h]

/-- Dice of one kind show the faces from the place of the script on. -/
theorem rollDice_eq {faces : List Nat} (hne : faces ≠ []) (sides : Nat) :
    ∀ count place : Nat, place + count < 18446744073709551616 →
      roller.rollDice sides count ⟨faces, place⟩ =
        ((List.range' place count).map fun k => face ⟨faces, k⟩ sides, ⟨faces, place + count⟩)
  | 0, _, _ => rfl
  | count + 1, place, h => by
    have hnext : roller.die sides ⟨faces, place⟩ = (face ⟨faces, place⟩ sides, ⟨faces, place + 1⟩) := by
      rw [← advance_of_lt hne (by omega)]
      rfl
    have hplace : place + 1 + count = place + (count + 1) := by omega
    rw [Roller.rollDice, hnext]
    dsimp only
    rw [rollDice_eq hne sides count (place + 1) (by omega), hplace, List.range'_succ, List.map_cons]

/-- A face of the die is shown as it is. -/
theorem face_eq_getElem {faces : List Nat} {k sides : Nat} (hk : k < faces.length)
    (hmem : 1 ≤ faces[k] ∧ faces[k] ≤ sides) : face ⟨faces, k⟩ sides = faces[k] := by
  have hplace : faces[k % faces.length]? = some faces[k] := by
    rw [Nat.mod_eq_of_lt hk, List.getElem?_eq_getElem hk]
  simp only [face, hplace]
  omega

/-- A script with one face of the die for each of the dice replays its faces. -/
theorem rollDice_ofFaces {faces : List Nat} {sides : Nat} (hne : faces ≠ [])
    (hlength : faces.length < 18446744073709551616)
    (hmem : ∀ face ∈ faces, 1 ≤ face ∧ face ≤ sides) :
    (roller.rollDice sides faces.length (ofFaces faces)).1 = faces := by
  rw [ofFaces, rollDice_eq hne sides faces.length 0 (by omega)]
  refine List.ext_getElem (by simp) fun k hk hk' => ?_
  rw [List.getElem_map, List.getElem_range', Nat.zero_add, Nat.one_mul]
  exact face_eq_getElem hk' (hmem _ (List.getElem_mem hk'))

/-! ### Faces with a given sum -/

/-- Faces that sum up to a number: each die takes as much as leaves 1 for every
die behind it. -/
def spread (sides : Nat) : Nat → Nat → List Nat
  | 0, _ => []
  | count + 1, sum =>
    min sides (sum - count) :: spread sides count (sum - min sides (sum - count))

theorem length_spread (sides : Nat) : ∀ count sum : Nat, (spread sides count sum).length = count
  | 0, _ => rfl
  | count + 1, sum => by rw [spread, List.length_cons, length_spread sides count]

/-- What is left behind the first die is enough for the others and not too much. -/
theorem spread_rest {sides count sum : Nat} (hsides : 1 ≤ sides) (hleast : count + 1 ≤ sum)
    (hmost : sum ≤ (count + 1) * sides) :
    count ≤ sum - min sides (sum - count) ∧ sum - min sides (sum - count) ≤ count * sides := by
  have hproduct : (count + 1) * sides = count * sides + sides := Nat.succ_mul count sides
  have hcount : count ≤ count * sides := Nat.le_mul_of_pos_right count hsides
  omega

theorem mem_spread {sides : Nat} (hsides : 1 ≤ sides) : ∀ {count sum : Nat}, count ≤ sum →
    sum ≤ count * sides → ∀ face ∈ spread sides count sum, 1 ≤ face ∧ face ≤ sides
  | 0, _, _, _, face, hface => absurd hface List.not_mem_nil
  | count + 1, sum, hleast, hmost, face, hface => by
    obtain ⟨hleast', hmost'⟩ := spread_rest hsides hleast hmost
    rcases List.mem_cons.mp hface with rfl | hface
    · omega
    · exact mem_spread hsides hleast' hmost' face hface

theorem sum_spread {sides : Nat} (hsides : 1 ≤ sides) : ∀ {count sum : Nat}, count ≤ sum →
    sum ≤ count * sides → (spread sides count sum).sum = sum
  | 0, sum, _, hmost => by
    rw [Nat.zero_mul] at hmost
    rw [spread, List.sum_nil]
    omega
  | count + 1, sum, hleast, hmost => by
    obtain ⟨hleast', hmost'⟩ := spread_rest hsides hleast hmost
    rw [spread, List.sum_cons, sum_spread hsides hleast' hmost']
    omega

end Script

/-! ### Between the limits -/

/-- Each die adds between 1 and its sides. -/
theorem Result.Regular.natural_mem {r : Result} (h : r.Regular) :
    r.expression.count ≤ r.natural ∧ r.natural ≤ r.expression.count * r.expression.sides := by
  have hleast := List.card_nsmul_le_sum r.faces 1 fun face hface => (h.face_mem face hface).1
  have hmost := List.sum_le_card_nsmul r.faces r.expression.sides
    fun face hface => (h.face_mem face hface).2
  rw [h.length_faces, Nat.nsmul_eq_mul] at hleast hmost
  rw [h.natural_eq]
  omega

/-- Cutting to the range keeps the order, so the limits hold for totals that saturate. -/
theorem Result.Regular.totalInLimits {r : Result} (h : r.Regular) : r.TotalInLimits := by
  obtain ⟨hleast, hmost⟩ := h.natural_mem
  rw [Result.TotalInLimits, h.total_eq]
  exact ⟨Signed64.clamp_le_clamp (by omega), Signed64.clamp_le_clamp (by omega)⟩

namespace Expression

variable (e : Expression)

/-- Every number between the limits is the total of some natural. -/
theorem exists_natural_of_mem_limits {t : Int} (hleast : e.leastTotal ≤ t)
    (hgreatest : t ≤ e.greatestTotal) :
    ∃ natural, e.count ≤ natural ∧ natural ≤ e.count * e.sides ∧
      Signed64.add natural e.modifier = t := by
  have hfits : Signed64.Fits e.modifier := e.modifier_fits
  have hcount : e.count ≤ e.count * e.sides :=
    Nat.le_mul_of_pos_right e.count (Nat.le_trans (by decide) e.sides_mem.1)
  unfold leastTotal at hleast
  unfold greatestTotal at hgreatest
  generalize e.count * e.sides = most at hcount hgreatest ⊢
  simp only [Signed64.Fits, Signed64.add, Signed64.clamp, Signed64.lowest, Signed64.highest] at *
  -- below the end of the range one natural has this total; at the end the greatest has
  by_cases ht : t < 9223372036854775807
  · exact ⟨(t - e.modifier).toNat, by omega, by omega, by omega⟩
  · exact ⟨most, hcount, Nat.le_refl most, by omega⟩

/-- The faces that are spread over the dice are rolled by their own script. -/
theorem roll_spread {natural : Nat} (hleast : e.count ≤ natural)
    (hmost : natural ≤ e.count * e.sides) :
    (Script.roller.roll e (Script.ofFaces (Script.spread e.sides e.count natural))).1.total =
      Signed64.add natural e.modifier := by
  have hsides : 1 ≤ e.sides := Nat.le_trans (by decide) e.sides_mem.1
  have hlength := Script.length_spread e.sides e.count natural
  have hcount : 1 ≤ e.count ∧ e.count ≤ 100 := e.count_mem
  have hne : Script.spread e.sides e.count natural ≠ [] := by
    rw [← List.length_pos_iff]
    omega
  have hfaces := Script.rollDice_ofFaces hne (by omega) (Script.mem_spread hsides hleast hmost)
  rw [hlength] at hfaces
  have hsum : Result.sumFaces (Script.spread e.sides e.count natural) = natural :=
    Script.sum_spread hsides hleast hmost
  rw [Roller.roll]
  dsimp only
  rw [hfaces, Result.ofFaces, hsum]

/-- **Limits are exact.** Whatever the expression, the totals that it can be
rolled to, with rollers that show the faces of their dice, are the numbers
between its least and its greatest total, both included; and each of them is
rolled by a script of such faces. -/
theorem totals_fill_limits (t : Int) :
    (e.leastTotal ≤ t ∧ t ≤ e.greatestTotal ↔
      ∃ (σ : Type) (roller : Roller σ) (state : σ), roller.OnDie ∧
        (roller.roll e state).1.total = t) ∧
    (e.leastTotal ≤ t ∧ t ≤ e.greatestTotal ↔
      ∃ faces : List Nat, faces.length = e.count ∧ (∀ face ∈ faces, 1 ≤ face ∧ face ≤ e.sides) ∧
        (Script.roller.roll e (Script.ofFaces faces)).1.total = t) := by
  have hrolled : ∀ {σ : Type} {roller : Roller σ} {state : σ}, roller.OnDie →
      (roller.roll e state).1.total = t → e.leastTotal ≤ t ∧ t ≤ e.greatestTotal := by
    rintro σ roller state hdie rfl
    exact (Roller.regular_roll hdie e state).totalInLimits
  have hscript : e.leastTotal ≤ t ∧ t ≤ e.greatestTotal → ∃ faces : List Nat,
      faces.length = e.count ∧ (∀ face ∈ faces, 1 ≤ face ∧ face ≤ e.sides) ∧
        (Script.roller.roll e (Script.ofFaces faces)).1.total = t := by
    rintro ⟨hleast, hgreatest⟩
    obtain ⟨natural, hcount, hmost, rfl⟩ := e.exists_natural_of_mem_limits hleast hgreatest
    have hsides : 1 ≤ e.sides := Nat.le_trans (by decide) e.sides_mem.1
    exact ⟨Script.spread e.sides e.count natural, Script.length_spread e.sides e.count natural,
      Script.mem_spread hsides hcount hmost, e.roll_spread hcount hmost⟩
  refine ⟨⟨fun ht => ?_, ?_⟩, ⟨hscript, ?_⟩⟩
  · obtain ⟨faces, -, -, htotal⟩ := hscript ht
    exact ⟨Script, Script.roller, Script.ofFaces faces, Roller.onDie_script, htotal⟩
  · rintro ⟨σ, roller, state, hdie, htotal⟩
    exact hrolled hdie htotal
  · rintro ⟨faces, -, -, htotal⟩
    exact hrolled Roller.onDie_script htotal

end Expression
end DiceTower
