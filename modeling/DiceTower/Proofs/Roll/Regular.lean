/-
# Every roll is regular

Whatever text is rolled, with any roller that shows the faces of its dice: a
result has as many faces as its expression has dice, its natural is their
sum, and its total is the natural with the modifier, cut to the signed range.
A kept pair is of one expression, a batch has two members or more, and its
grand total is their saturating sum from left to right (`Roll.Regular`).

Totals saturate, but the sum of the faces and the greatest sum that an
expression allows are plain (`Result.Exact`). They stay in the signed range
by the bound on the count alone, so also for a roller that shows any 32-bit
number on any die.

Key definitions: `Signed64.sum?`, `Roller.OnDie`, `Roller.InWords`,
`Result.Regular`, `Result.Exact`, `Roll.Regular`.
Key theorems: `Roller.forall_mem_rollAll`, `Roller.rolls_are_regular`,
`Dealer.regular_of_serve`.
-/
import DiceTower.Proofs.Roll.Outcome
import DiceTower.Random.Dealer
import DiceTower.Roll.Script
import Mathlib.Algebra.Order.BigOperators.Group.List
import Mathlib.Algebra.Order.Ring.Nat

namespace DiceTower

open Text Notation Expression

/-! ### Plain sums -/

/-- The plain sum of numbers added one after another to the first; there is
none if a sum on the way leaves the range. -/
def Signed64.sum? : Int → List Nat → Option Int
  | total, [] => some total
  | total, n :: rest => if Fits (total + n) then sum? (total + n) rest else none

/-- Where the whole sum does not pass the end of the range, no sum on the way does. -/
theorem Signed64.sum?_eq_some : ∀ {total : Int} {ns : List Nat}, lowest ≤ total →
    total + ns.sum ≤ highest → sum? total ns = some (total + ns.sum)
  | total, [], _, _ => by simp [sum?]
  | total, n :: rest, hlow, hhigh => by
    rw [List.sum_cons, Int.natCast_add] at hhigh ⊢
    have hfits : Fits (total + n) := by
      unfold Fits
      omega
    rw [sum?, if_pos hfits, sum?_eq_some (by omega) (by omega)]
    congr 1
    omega

/-! ### Regular results and rolls -/

/-- The faces are those of the expression's dice, the natural is their sum, and
the total is the natural with the modifier, cut to the signed range. -/
structure Result.Regular (r : Result) : Prop where
  count_mem : 1 ≤ r.expression.count ∧ r.expression.count ≤ 100
  sides_mem : 2 ≤ r.expression.sides ∧ r.expression.sides ≤ 1000
  length_faces : r.faces.length = r.expression.count
  face_mem : ∀ face ∈ r.faces, 1 ≤ face ∧ face ≤ r.expression.sides
  natural_eq : r.natural = r.faces.sum
  total_eq : r.total = Signed64.clamp (r.natural + r.expression.modifier)

/-- No plain sum or product on the way to the result leaves the signed range:
not the sum of the faces, taken one after another, and not the number of dice
times the number of sides. -/
structure Result.Exact (r : Result) : Prop where
  natural_eq : Signed64.sum? 0 r.faces = some (r.natural : Int)
  greatest_fits : Signed64.Fits (r.expression.count * r.expression.sides)

/-- The results are regular; the two of a pair are of one expression, and a
batch has at least two results and their saturating sum from left to right. -/
def Roll.Regular : Roll → Prop
  | .simple result => result.Regular
  | .kept pair =>
    pair.chosen.Regular ∧ pair.other.Regular ∧ pair.chosen.expression = pair.other.expression
  | .batch b =>
    2 ≤ b.results.length ∧ (∀ r ∈ b.results, r.Regular) ∧
      b.grandTotal = (b.results.map (·.total)).foldl (fun sum t => Signed64.clamp (sum + t)) 0

/-- A lone result is regular if it is, and so are several with their grand total. -/
theorem Roll.regular_ofResults {results : List Result} (hne : results ≠ [])
    (h : ∀ r ∈ results, r.Regular) : (ofResults results).Regular := by
  match results with
  | [] => exact absurd rfl hne
  | [result] => exact h result List.mem_cons_self
  | first :: second :: rest =>
    have htwo : 2 ≤ (first :: second :: rest).length := by simp
    refine ⟨htwo, h, ?_⟩
    rw [List.foldl_map]
    rfl

/-- A choice leaves the two results in order where the policy keeps the first
total, and swaps them elsewhere. -/
theorem Kept.choose_cases (first second : Result) (policy : Policy) :
    KeepsFirst policy first.total second.total ∧
        choose first second policy = ⟨first, second, policy⟩ ∨
      ¬ KeepsFirst policy first.total second.total ∧
        choose first second policy = ⟨second, first, policy⟩ := by
  by_cases hkeep : KeepsFirst policy first.total second.total
  · exact Or.inl ⟨hkeep, if_pos hkeep⟩
  · exact Or.inr ⟨hkeep, if_neg hkeep⟩

theorem Roll.forall_mem_results_kept {P : Result → Prop} {pair : Kept} :
    (∀ r ∈ (kept pair).results, P r) ↔ P pair.chosen ∧ P pair.other := by
  simp [results]

namespace Roller

variable {σ : Type} (roller : Roller σ)

/-! ### Rollers -/

/-- A die shows one of its faces. -/
def OnDie : Prop := ∀ sides, 1 ≤ sides → ∀ state,
  1 ≤ (roller.die sides state).1 ∧ (roller.die sides state).1 ≤ sides

/-- A die shows some number of 32 bits. -/
def InWords : Prop := ∀ sides state, (roller.die sides state).1 < 4294967296

/-- What holds of every face of a die holds of all faces of several. -/
theorem forall_mem_rollDice {P : Nat → Prop} {sides : Nat}
    (h : ∀ state, P (roller.die sides state).1) :
    ∀ (count : Nat) (state : σ), ∀ face ∈ (roller.rollDice sides count state).1, P face
  | 0, _, face, hface => absurd hface List.not_mem_nil
  | count + 1, state, face, hface => by
    rcases List.mem_cons.mp hface with rfl | hface
    · exact h state
    · exact forall_mem_rollDice h count _ face hface

/-- What holds of every roll of an expression holds of all results of several. -/
theorem forall_mem_rollAll {P : Result → Prop} (h : ∀ e state, P (roller.roll e state).1) :
    ∀ (expressions : List Expression) (state : σ), ∀ r ∈ (roller.rollAll expressions state).1, P r
  | [], _, r, hr => absurd hr List.not_mem_nil
  | e :: rest, state, r, hr => by
    rcases List.mem_cons.mp hr with rfl | hr
    · exact h e state
    · exact forall_mem_rollAll h rest _ r hr

/-! ### One expression -/

theorem regular_roll {roller : Roller σ} (h : roller.OnDie) (e : Expression) (state : σ) :
    (roller.roll e state).1.Regular where
  count_mem := e.count_mem
  sides_mem := e.sides_mem
  length_faces := roller.length_rollDice e.sides e.count state
  face_mem := by
    have hsides : 1 ≤ e.sides := Nat.le_trans (by decide) e.sides_mem.1
    exact roller.forall_mem_rollDice (h e.sides hsides) e.count state
  natural_eq := rfl
  total_eq := rfl

/-- Faces of 32 bits leave room enough for as many dice as an expression has. -/
theorem exact_of_lt {r : Result} (hlength : r.faces.length = r.expression.count)
    (hnatural : r.natural = r.faces.sum) (hface : ∀ face ∈ r.faces, face < 4294967296) :
    r.Exact := by
  have hcount : r.expression.count ≤ 100 := r.expression.count_mem.2
  have hsides : r.expression.sides ≤ 1000 := r.expression.sides_mem.2
  have hsum : r.faces.sum ≤ 100 * 4294967296 :=
    calc r.faces.sum ≤ r.faces.length • 4294967296 :=
          List.sum_le_card_nsmul _ _ fun face hmem => Nat.le_of_lt (hface face hmem)
      _ = r.expression.count * 4294967296 := by rw [hlength, Nat.nsmul_eq_mul]
      _ ≤ 100 * 4294967296 := Nat.mul_le_mul_right _ hcount
  have hproduct : r.expression.count * r.expression.sides ≤ 100 * 1000 :=
    Nat.mul_le_mul hcount hsides
  refine ⟨?_, ?_⟩
  · rw [Signed64.sum?_eq_some (by decide) (by unfold Signed64.highest; omega), hnatural, zero_add]
  · unfold Signed64.Fits Signed64.lowest Signed64.highest
    omega

theorem exact_roll {roller : Roller σ} (h : roller.OnDie ∨ roller.InWords) (e : Expression)
    (state : σ) : (roller.roll e state).1.Exact := by
  have hface : ∀ state, (roller.die e.sides state).1 < 4294967296 := by
    have hleast : 2 ≤ e.sides := e.sides_mem.1
    have hgreatest : e.sides ≤ 1000 := e.sides_mem.2
    intro state
    rcases h with hdie | hwords
    · have hmem := hdie e.sides (by omega) state
      omega
    · exact hwords e.sides state
  exact exact_of_lt (roller.length_rollDice e.sides e.count state) rfl
    (roller.forall_mem_rollDice hface e.count state)

/-! ### Requests -/

/-- The roll is what a text comes to, or a token that is rolled under a policy. -/
inductive Made (state : σ) : Roll → Prop
  | text {text : Text} {made : Roll} (h : (roller.rollText text state).1 = .ok made) :
      Made state made
  | kept {token : Text} {policy : Policy} {pair : Kept}
      (h : (roller.rollKept token policy state).1 = .ok pair) : Made state (.kept pair)

/-- A text comes to a roll if it has tokens, and then to the roll of their results. -/
theorem exists_of_rollText_eq_ok {text : Text} {state : σ} {made : Roll}
    (h : (roller.rollText text state).1 = .ok made) : ∃ expressions, expressions ≠ [] ∧
      made = Roll.ofResults (roller.rollAll expressions state).1 := by
  by_cases hne : tokens text = []
  · rw [rollText_of_tokens_eq_nil _ hne] at h
    cases h
  cases hall : parseAll (tokens text) with
  | error error =>
    rw [rollText_of_error _ hall] at h
    cases h
  | ok expressions =>
    rw [rollText_of_ok _ hne hall] at h
    refine ⟨expressions, ?_, (Except.ok.inj h).symm⟩
    rintro rfl
    exact hne (map_written_of_parseAll hall).symm

/-- A token comes to a pair if it stands for an expression, which is rolled twice. -/
theorem exists_of_rollKept_eq_ok {token : Text} {policy : Policy} {state : σ} {pair : Kept}
    (h : (roller.rollKept token policy state).1 = .ok pair) : ∃ e, pair =
      Kept.choose (roller.roll e state).1 (roller.roll e (roller.roll e state).2).1 policy := by
  cases hp : parse token with
  | error error =>
    rw [rollKept_of_error _ hp] at h
    cases h
  | ok e =>
    simp only [rollKept, hp, rollTwice] at h
    exact ⟨e, (Except.ok.inj h).symm⟩

/-- What holds of every roll of an expression holds of all results of a request. -/
theorem Made.forall_mem_results {roller : Roller σ} {P : Result → Prop} {state : σ} {made : Roll}
    (hmade : roller.Made state made) (h : ∀ e state, P (roller.roll e state).1) :
    ∀ r ∈ made.results, P r := by
  cases hmade with
  | text hroll =>
    obtain ⟨expressions, -, rfl⟩ := roller.exists_of_rollText_eq_ok hroll
    rw [Roll.results_ofResults]
    exact roller.forall_mem_rollAll h expressions state
  | kept hroll =>
    obtain ⟨e, rfl⟩ := roller.exists_of_rollKept_eq_ok hroll
    have hfirst := h e state
    have hsecond := h e (roller.roll e state).2
    rcases Kept.choose_cases (roller.roll e state).1 (roller.roll e (roller.roll e state).2).1 _
      with ⟨-, hpair⟩ | ⟨-, hpair⟩
    · rw [hpair]
      exact Roll.forall_mem_results_kept.mpr ⟨hfirst, hsecond⟩
    · rw [hpair]
      exact Roll.forall_mem_results_kept.mpr ⟨hsecond, hfirst⟩

theorem Made.regular {roller : Roller σ} (h : roller.OnDie) {state : σ} {made : Roll}
    (hmade : roller.Made state made) : made.Regular := by
  have hresults : ∀ r ∈ made.results, r.Regular := hmade.forall_mem_results (regular_roll h)
  cases hmade with
  | text hroll =>
    obtain ⟨expressions, hne, rfl⟩ := roller.exists_of_rollText_eq_ok hroll
    rw [Roll.results_ofResults] at hresults
    refine Roll.regular_ofResults ?_ hresults
    rw [← List.length_pos_iff, length_rollAll]
    exact List.length_pos_iff.mpr hne
  | kept hroll =>
    obtain ⟨e, rfl⟩ := roller.exists_of_rollKept_eq_ok hroll
    obtain ⟨hchosen, hother⟩ := Roll.forall_mem_results_kept.mp hresults
    refine ⟨hchosen, hother, ?_⟩
    rcases Kept.choose_cases (roller.roll e state).1 (roller.roll e (roller.roll e state).2).1 _
      with ⟨-, hpair⟩ | ⟨-, hpair⟩
    · rw [hpair]
      rfl
    · rw [hpair]
      rfl

/-- **Every roll is regular.** If the dice show their own faces, each result
has the faces of its expression's dice, their sum as its natural and the
saturating total; a pair is of one expression, and a batch has two results or
more and their saturating grand total. No plain sum or product on the way
leaves the signed range, and this holds for dice that show any 32-bit number. -/
theorem rolls_are_regular {roller : Roller σ} {state : σ} {made : Roll}
    (hmade : roller.Made state made) :
    (roller.OnDie → made.Regular) ∧
      (roller.OnDie ∨ roller.InWords → ∀ r ∈ made.results, r.Exact) :=
  ⟨fun h => hmade.regular h, fun h => hmade.forall_mem_results (exact_roll h)⟩

/-- A script cuts its faces to the die. -/
theorem onDie_script : Script.roller.OnDie := fun _ hsides s => s.face_mem hsides

/-- The roller that shows the greatest number of 32 bits on every die. -/
def greatestWord : Roller Unit where
  die _ state := (4294967295, state)
  hasDie _ := true

theorem inWords_greatestWord : greatestWord.InWords := by
  intro sides state
  show 4294967295 < 4294967296
  decide

/-- A scripted batch whose totals stand at both ends of the signed range, and a
pair of a hundred dice that all show the greatest number of 32 bits. -/
theorem rolls_are_regular_at_the_ends :
    (∃ batch, Script.roller.Made (Script.ofFaces [6, 9, 0]) (.batch batch) ∧
      batch.results.map (·.total) = [9223372036854775807, -9223372036854775807] ∧
      Script.roller.OnDie ∧ (Roll.batch batch).Regular) ∧
    ∃ pair, greatestWord.Made () (.kept pair) ∧ pair.chosen.natural = 429496729500 ∧
      greatestWord.InWords ∧ ∀ r ∈ (Roll.kept pair).results, r.Exact := by
  obtain ⟨batch, hbatch, htotals⟩ : ∃ batch, (Script.roller.rollText
      "2d6+9223372036854775807 and d4-9223372036854775808".toList (Script.ofFaces [6, 9, 0])).1 =
        .ok (.batch batch) ∧
      batch.results.map (·.total) = [9223372036854775807, -9223372036854775807] := ⟨_, rfl, rfl⟩
  obtain ⟨pair, hpair, hnatural⟩ : ∃ pair, (greatestWord.rollKept "100D2".toList .advantage ()).1 =
      .ok pair ∧ pair.chosen.natural = 429496729500 := ⟨_, rfl, rfl⟩
  have hregular : (Roll.batch batch).Regular := (rolls_are_regular (.text hbatch)).1 onDie_script
  have hexact : ∀ r ∈ (Roll.kept pair).results, r.Exact :=
    (rolls_are_regular (.kept hpair)).2 (Or.inr inWords_greatestWord)
  exact ⟨⟨batch, .text hbatch, htotals, onDie_script, hregular⟩,
    pair, .kept hpair, hnatural, inWords_greatestWord, hexact⟩

end Roller

/-- A generator shows the faces of the die. -/
theorem Xoshiro.onDie_roller : Xoshiro.roller.OnDie := by
  intro sides hsides g
  show 1 ≤ ((Face.draw? sides g).getD (1, g)).1 ∧ ((Face.draw? sides g).getD (1, g)).1 ≤ sides
  cases hdraw : Face.draw? sides g with
  | none => exact ⟨Nat.le_refl 1, hsides⟩
  | some shown => exact Face.draw?_mem hsides hdraw

/-- **Every roll that a dealer serves is regular.** -/
theorem Dealer.regular_of_serve {d : Dealer} {order : Dealer.Order} {made : Roll}
    (h : (Dealer.serve order d).1 = .ok made) : made.Regular := by
  unfold serve at h
  split at h
  · exact Roller.Made.regular Xoshiro.onDie_roller (.text h)
  · rename_i policy _
    cases hkept : (Xoshiro.roller.rollKept order.text policy d.generator).1 with
    | error error => simp [rollKept, hkept, Except.map] at h
    | ok pair =>
      obtain rfl : .kept pair = made := by simpa [rollKept, hkept, Except.map] using h
      exact Roller.Made.regular Xoshiro.onDie_roller (.kept hkept)

end DiceTower
