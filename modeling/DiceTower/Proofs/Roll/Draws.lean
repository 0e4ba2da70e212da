/-
# Which dice a request draws

The calls of a roller are followed in two ways. `Runs` says that a list of
calls, each with the sides asked for and the face shown, takes the roller
from one state to another. `recorded` is the roller that keeps a record of
its own calls; it shows the faces that the plain roller shows, so its record
is that of the plain roller's calls (`recorded_rollAll`).

A request that is refused makes no call. One that is served makes the calls of
its expressions in order, each expression's own dice one after another, and
each result holds the faces of its own calls (`Drawn`).

Key definitions: `Call`, `Result.calls`, `Roller.Runs`, `Roller.recorded`,
`Roller.Drawn`.
Key theorems: `Roller.drawn_rollAll`, `Roller.Drawn.two_le_sides`,
`Roller.requests_draw_exactly`.
-/
import DiceTower.Proofs.Roll.Outcome

namespace DiceTower

open Text Notation Expression

/-- One call of a roller. -/
structure Call where
  /-- The sides that were asked for. -/
  sides : Nat
  /-- The face that was shown. -/
  face : Nat
deriving DecidableEq

/-- The calls that a result took: one for each face, with the sides of its expression. -/
def Result.calls (r : Result) : List Call := r.faces.map (Call.mk r.expression.sides)

namespace Roller

variable {σ : Type} (roller : Roller σ)

/-! ### Following the calls -/

/-- The calls take the roller from the first state to the last, one after another. -/
inductive Runs : σ → List Call → σ → Prop
  | done (state : σ) : Runs state [] state
  | call {state middle final : σ} {c : Call} {calls : List Call}
      (hdie : roller.die c.sides state = (c.face, middle)) (hrest : Runs middle calls final) :
      Runs state (c :: calls) final

theorem Runs.append {roller : Roller σ} {state middle final : σ} {first second : List Call}
    (h : roller.Runs state first middle) (h' : roller.Runs middle second final) :
    roller.Runs state (first ++ second) final := by
  induction h with
  | done => exact h'
  | call hdie _ ih => exact .call hdie (ih h')

/-- The roller with a record of its calls, the latest one last. -/
def recorded : Roller (σ × List Call) where
  die sides state :=
    ((roller.die sides state.1).1, (roller.die sides state.1).2,
      state.2 ++ [⟨sides, (roller.die sides state.1).1⟩])
  hasDie := roller.hasDie

/-- The results are those of the expressions, with one face for each die; the
calls are their calls, in order, and take the roller from the first state to
the last. -/
structure Drawn (state : σ) (expressions : List Expression) (results : List Result)
    (calls : List Call) (final : σ) : Prop where
  expressions_eq : results.map (·.expression) = expressions
  counts : ∀ r ∈ results, r.faces.length = r.expression.count
  calls_eq : calls = results.flatMap Result.calls
  sides_eq : calls.map (·.sides) = expressions.flatMap fun e => List.replicate e.count e.sides
  runs : roller.Runs state calls final

theorem Drawn.nil (state : σ) : roller.Drawn state [] [] [] state :=
  ⟨rfl, by simp, rfl, rfl, .done state⟩

theorem Drawn.append {roller : Roller σ} {state middle final : σ} {es es' : List Expression}
    {rs rs' : List Result} {calls calls' : List Call} (h : roller.Drawn state es rs calls middle)
    (h' : roller.Drawn middle es' rs' calls' final) :
    roller.Drawn state (es ++ es') (rs ++ rs') (calls ++ calls') final where
  expressions_eq := by rw [List.map_append, h.expressions_eq, h'.expressions_eq]
  counts r hr := by
    rcases List.mem_append.mp hr with hr | hr
    · exact h.counts r hr
    · exact h'.counts r hr
  calls_eq := by rw [List.flatMap_append, h.calls_eq, h'.calls_eq]
  sides_eq := by rw [List.map_append, List.flatMap_append, h.sides_eq, h'.sides_eq]
  runs := h.runs.append h'.runs

/-- Every die that is rolled for expressions has two sides or more. -/
theorem Drawn.two_le_sides {roller : Roller σ} {state final : σ} {expressions : List Expression}
    {results : List Result} {calls : List Call}
    (h : roller.Drawn state expressions results calls final) : ∀ c ∈ calls, 2 ≤ c.sides := by
  intro c hc
  have hmem : c.sides ∈ calls.map (·.sides) := List.mem_map_of_mem hc
  rw [h.sides_eq] at hmem
  obtain ⟨e, -, hsides⟩ := List.mem_flatMap.mp hmem
  rw [List.eq_of_mem_replicate hsides]
  exact e.sides_mem.1

/-! ### What the roller draws -/

theorem runs_rollDice (sides count : Nat) (state : σ) :
    roller.Runs state ((roller.rollDice sides count state).1.map (Call.mk sides))
      (roller.rollDice sides count state).2 := by
  induction count generalizing state with
  | zero => exact .done state
  | succ count ih => exact .call rfl (ih (roller.die sides state).2)

/-- One expression draws its dice. -/
theorem drawn_roll (e : Expression) (state : σ) :
    roller.Drawn state [e] [(roller.roll e state).1] (roller.roll e state).1.calls
      (roller.roll e state).2 where
  expressions_eq := rfl
  counts r hr := by
    obtain rfl := List.mem_singleton.mp hr
    exact roller.length_rollDice e.sides e.count state
  calls_eq := by simp
  sides_eq := by
    have hlen : (roller.roll e state).1.faces.length = e.count :=
      roller.length_rollDice e.sides e.count state
    have hsides : (roller.roll e state).1.calls.map (·.sides) =
        List.replicate (roller.roll e state).1.faces.length e.sides := by
      simp only [Result.calls, List.map_map, Function.comp_def]
      exact List.map_const' ..
    rw [hsides, hlen]
    simp
  runs := roller.runs_rollDice e.sides e.count state

/-- Several expressions draw their dice in order. -/
theorem drawn_rollAll : ∀ (expressions : List Expression) (state : σ),
    roller.Drawn state expressions (roller.rollAll expressions state).1
      ((roller.rollAll expressions state).1.flatMap Result.calls)
      (roller.rollAll expressions state).2
  | [], state => Drawn.nil roller state
  | e :: rest, state => (roller.drawn_roll e state).append (drawn_rollAll rest _)

/-! ### The record -/

theorem recorded_die (sides : Nat) (state : σ) (log : List Call) :
    roller.recorded.die sides (state, log) = ((roller.die sides state).1,
      (roller.die sides state).2, log ++ [⟨sides, (roller.die sides state).1⟩]) := rfl

theorem recorded_rollDice (sides count : Nat) (state : σ) (log : List Call) :
    roller.recorded.rollDice sides count (state, log) =
      ((roller.rollDice sides count state).1, (roller.rollDice sides count state).2,
        log ++ (roller.rollDice sides count state).1.map (Call.mk sides)) := by
  induction count generalizing state log with
  | zero => simp [rollDice]
  | succ count ih => simp only [rollDice, recorded_die, ih, List.map_cons, List.append_assoc,
      List.cons_append, List.nil_append]

theorem recorded_roll (e : Expression) (state : σ) (log : List Call) :
    roller.recorded.roll e (state, log) =
      ((roller.roll e state).1, (roller.roll e state).2, log ++ (roller.roll e state).1.calls) := by
  simp only [roll, recorded_rollDice]
  rfl

theorem recorded_rollAll (expressions : List Expression) (state : σ) (log : List Call) :
    roller.recorded.rollAll expressions (state, log) =
      ((roller.rollAll expressions state).1, (roller.rollAll expressions state).2,
        log ++ (roller.rollAll expressions state).1.flatMap Result.calls) := by
  induction expressions generalizing state log with
  | nil => simp [rollAll]
  | cons e rest ih =>
    simp only [rollAll, recorded_roll, ih, List.flatMap_cons, List.append_assoc]

/-! ### Requests -/

/-- What a request comes to, beside what it comes to on the record: both have
the same outcome and end in the same state, and the record goes on with the
calls made. If the request is refused, the state is the one before and there
are no calls; if it is served, the calls are as they should be. -/
def DrawsExactly {α : Type} (Served : α → List Call → σ → Prop) (state : σ) (log : List Call)
    (plain : Except DiceError α × σ) (onRecord : Except DiceError α × (σ × List Call)) : Prop :=
  ∃ calls, onRecord = (plain.1, plain.2, log ++ calls) ∧
    (∀ error, plain.1 = .error error → plain.2 = state ∧ calls = []) ∧
    ∀ served, plain.1 = .ok served → Served served calls plain.2

section

variable {α : Type} {Served : α → List Call → σ → Prop} {state : σ} {log : List Call}

theorem drawsExactly_refused (error : DiceError) :
    DrawsExactly Served state log (.error error, state) (.error error, state, log) := by
  refine ⟨[], by rw [List.append_nil], fun _ _ => ⟨rfl, rfl⟩, ?_⟩
  intro served h
  cases h

theorem drawsExactly_served {served : α} {calls : List Call} {final : σ}
    (h : Served served calls final) :
    DrawsExactly Served state log (.ok served, final) (.ok served, final, log ++ calls) := by
  refine ⟨calls, rfl, ?_, ?_⟩
  · intro error herror
    cases herror
  · intro served' hs
    obtain rfl := Except.ok.inj hs
    exact h

/-- Where the calls of all that is served have two sides or more, so have those
that a request puts on an empty record. -/
theorem DrawsExactly.two_le_sides {plain : Except DiceError α × σ}
    {onRecord : Except DiceError α × (σ × List Call)}
    (h : DrawsExactly Served state [] plain onRecord)
    (hserved : ∀ served calls final, Served served calls final → ∀ c ∈ calls, 2 ≤ c.sides) :
    ∀ c ∈ onRecord.2.2, 2 ≤ c.sides := by
  obtain ⟨calls, rfl, hrefused, hdrawn⟩ := h
  intro c hc
  cases hplain : plain.1 with
  | error error =>
    rw [(hrefused error hplain).2] at hc
    cases hc
  | ok served => exact hserved served calls plain.2 (hdrawn served hplain) c hc

end

/-- A text that is rolled draws the dice of its tokens in order. -/
theorem rollText_drawsExactly (text : Text) (state : σ) (log : List Call) :
    DrawsExactly
      (fun made calls final => ∃ expressions, (tokens text).map parse = expressions.map .ok ∧
        roller.Drawn state expressions made.results calls final)
      state log (roller.rollText text state) (roller.recorded.rollText text (state, log)) := by
  by_cases hne : tokens text = []
  · rw [rollText_of_tokens_eq_nil _ hne, rollText_of_tokens_eq_nil _ hne]
    exact drawsExactly_refused _
  cases hall : parseAll (tokens text) with
  | error error =>
    rw [rollText_of_error _ hall, rollText_of_error _ hall]
    exact drawsExactly_refused error
  | ok expressions =>
    rw [rollText_of_ok _ hne hall, rollText_of_ok _ hne hall, recorded_rollAll]
    refine drawsExactly_served ⟨expressions, parseAll_eq_ok_iff.mp hall, ?_⟩
    rw [Roll.results_ofResults]
    exact roller.drawn_rollAll expressions state

/-- A token that is rolled under a policy draws the dice of its expression twice. -/
theorem rollKept_drawsExactly (token : Text) (policy : Policy) (state : σ) (log : List Call) :
    DrawsExactly
      (fun kept calls final => ∃ e first second, parse token = .ok e ∧
        kept = Kept.choose first second policy ∧
          roller.Drawn state [e, e] [first, second] calls final)
      state log (roller.rollKept token policy state)
      (roller.recorded.rollKept token policy (state, log)) := by
  cases hp : parse token with
  | error error =>
    rw [rollKept_of_error _ hp, rollKept_of_error _ hp]
    exact drawsExactly_refused error
  | ok e =>
    have hfirst := roller.drawn_roll e state
    have hsecond := roller.drawn_roll e (roller.roll e state).2
    simp only [rollKept, hp, rollTwice, recorded_roll, List.append_assoc]
    exact drawsExactly_served ⟨e, _, _, rfl, rfl, hfirst.append hsecond⟩

/-- **Exact draws.** A request that is refused leaves the roller as it was and
makes no call, wherever in it the fault lies. A request that is served makes
the calls of its parsed expressions and no others: for each expression in the
order of the tokens, or twice for the one expression of a pair, as many calls
as it has dice, with its sides. The results hold the faces of their own calls,
and the roller ends where the last call left it. -/
theorem requests_draw_exactly (state : σ) (log : List Call) :
    (∀ text, DrawsExactly
      (fun made calls final => ∃ expressions, (tokens text).map parse = expressions.map .ok ∧
        roller.Drawn state expressions made.results calls final)
      state log (roller.rollText text state) (roller.recorded.rollText text (state, log))) ∧
    ∀ token policy, DrawsExactly
      (fun kept calls final => ∃ e first second, parse token = .ok e ∧
        kept = Kept.choose first second policy ∧
          roller.Drawn state [e, e] [first, second] calls final)
      state log (roller.rollKept token policy state)
      (roller.recorded.rollKept token policy (state, log)) :=
  ⟨fun text => roller.rollText_drawsExactly text state log,
    fun token policy => roller.rollKept_drawsExactly token policy state log⟩

end Roller
end DiceTower
