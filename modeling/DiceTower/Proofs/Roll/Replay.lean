/-
# A script is replayed across a session

Requests that share a roller are followed by the calls they make of it. A
request that is refused makes none and leaves the roller as it was; any other
makes the calls of its own dice (`Roller.Serves`). So the calls of a session
are those of its requests, one request after another (`Roller.ServesAll`), and
they take the roller from the first state to the last
(`Roller.ServesAll.runs`).

A script shows its faces in turn: the call at place `k` of a session shows the
face at place `k` of the script, which starts over at its end and is cut to the
die (`Script.shown`). The place counts the calls modulo 2⁶⁴, so this holds up
to that many.

Key definitions: `Roller.Serves`, `Roller.ServesAll`, `Roller.draws`,
`Roller.ServesOnRecord`, `Script.shown`.
Key theorems: `Roller.servesAll_serveAll`, `Script.face_eq_shown_of_runs`,
`Script.session_replays_script`.
-/
import DiceTower.Proofs.Roll.Draws
import DiceTower.Proofs.Roll.Limits
import DiceTower.Roll.Session

namespace DiceTower

open Text Notation Expression

namespace Roller

variable {σ : Type} (roller : Roller σ)

/-! ### The calls of a session -/

/-- The request gets the answer; the calls are those of the answer's dice, in the
order in which they are rolled, and take the roller from the first state to the
last. -/
inductive Serves : σ → Request → Served → List Call → σ → Prop
  /-- One die is one call. -/
  | die {sides face : Nat} {state final : σ} (hdie : roller.die sides state = (face, final)) :
      Serves state (.die sides) (.face face) [⟨sides, face⟩] final
  | noSuchDie {sides : Nat} {state : σ} (hhas : roller.hasDie sides = false) :
      Serves state (.die sides) .noSuchDie [] state
  /-- A request that is refused makes no call. -/
  | refused {request : Request} {error : DiceError} {state : σ}
      (hrefused : (roller.serve request state).1 = .refused error) :
      Serves state request (.refused error) [] state
  | token {token : Text} {e : Expression} {result : Result} {calls : List Call} {state final : σ}
      (hparse : parse token = .ok e) (hdrawn : roller.Drawn state [e] [result] calls final) :
      Serves state (.token token) (.roll (.simple result)) calls final
  /-- Of a pair the first result is drawn first, whichever is kept. -/
  | kept {token : Text} {policy : Policy} {e : Expression} {first second : Result}
      {calls : List Call} {state final : σ} (hparse : parse token = .ok e)
      (hdrawn : roller.Drawn state [e, e] [first, second] calls final) :
      Serves state (.kept token policy) (.roll (.kept (Kept.choose first second policy))) calls final
  | text {text : Text} {expressions : List Expression} {results : List Result}
      {calls : List Call} {state final : σ} (hparse : (tokens text).map parse = expressions.map .ok)
      (hdrawn : roller.Drawn state expressions results calls final) :
      Serves state (.text text) (.roll (.ofResults results)) calls final

/-- The requests get the answers, one after another, and the calls are theirs. -/
inductive ServesAll : σ → List Request → List Served → List Call → σ → Prop
  | done (state : σ) : ServesAll state [] [] [] state
  | serve {state middle final : σ} {request : Request} {served : Served} {calls others : List Call}
      {requests : List Request} {answers : List Served}
      (hfirst : roller.Serves state request served calls middle)
      (hrest : ServesAll middle requests answers others final) :
      ServesAll state (request :: requests) (served :: answers) (calls ++ others) final

/-- All calls that a session makes of the roller. -/
def draws (requests : List Request) (state : σ) : List Call :=
  (roller.recorded.serveAll requests (state, [])).2.2

/-! ### One request -/

/-- The answer to a request is that of its calls, and the record goes on with them. -/
def ServesOnRecord (request : Request) (state : σ) (log : List Call) : Prop :=
  ∃ calls, roller.recorded.serve request (state, log) =
      ((roller.serve request state).1, (roller.serve request state).2, log ++ calls) ∧
    roller.Serves state request (roller.serve request state).1 calls
      (roller.serve request state).2

theorem servesOnRecord_die (sides : Nat) (state : σ) (log : List Call) :
    roller.ServesOnRecord (.die sides) state log := by
  by_cases hhas : roller.hasDie sides = true
  · refine ⟨[⟨sides, (roller.die sides state).1⟩], ?_, ?_⟩
    · simp only [serve, recorded, hhas, if_true]
    · simp only [serve, hhas, if_true]
      exact .die rfl
  · rw [Bool.not_eq_true] at hhas
    refine ⟨[], ?_, ?_⟩
    · simp [serve, recorded, hhas]
    · simp only [serve, hhas]
      exact .noSuchDie hhas

theorem servesOnRecord_token (token : Text) (state : σ) (log : List Call) :
    roller.ServesOnRecord (.token token) state log := by
  cases hp : parse token with
  | error error =>
    have hserve : roller.serve (.token token) state = (.refused error, state) := by
      simp only [serve, rollToken, hp]
      rfl
    refine ⟨[], ?_, ?_⟩
    · simp [serve, rollToken, hp, Except.map, Served.ofOutcome]
    · rw [hserve]
      exact .refused (by rw [hserve])
  | ok e =>
    refine ⟨(roller.roll e state).1.calls, ?_, ?_⟩
    · simp only [serve, rollToken, hp, recorded_roll]
    · simp only [serve, rollToken, hp]
      exact .token hp (roller.drawn_roll e state)

theorem servesOnRecord_kept (token : Text) (policy : Policy) (state : σ) (log : List Call) :
    roller.ServesOnRecord (.kept token policy) state log := by
  obtain ⟨calls, hrecord, hrefused, hserved⟩ := roller.rollKept_drawsExactly token policy state log
  refine ⟨calls, by simp only [serve, hrecord], ?_⟩
  simp only [serve]
  cases houtcome : (roller.rollKept token policy state).1 with
  | error error =>
    obtain ⟨hfinal, rfl⟩ := hrefused error houtcome
    rw [hfinal]
    exact .refused (by simp only [serve, houtcome]; rfl)
  | ok pair =>
    obtain ⟨e, first, second, hp, rfl, hdrawn⟩ := hserved pair houtcome
    exact .kept hp hdrawn

theorem servesOnRecord_text (text : Text) (state : σ) (log : List Call) :
    roller.ServesOnRecord (.text text) state log := by
  obtain ⟨calls, hrecord, hrefused, hserved⟩ := roller.rollText_drawsExactly text state log
  refine ⟨calls, by simp only [serve, hrecord], ?_⟩
  simp only [serve]
  cases houtcome : (roller.rollText text state).1 with
  | error error =>
    obtain ⟨hfinal, rfl⟩ := hrefused error houtcome
    rw [hfinal]
    exact .refused (by simp only [serve, houtcome]; rfl)
  | ok made =>
    obtain ⟨expressions, hparse, hdrawn⟩ := hserved made houtcome
    obtain ⟨_, -, rfl⟩ := roller.exists_of_rollText_eq_ok houtcome
    rw [Roll.results_ofResults] at hdrawn
    exact .text hparse hdrawn

theorem servesOnRecord : ∀ (request : Request) (state : σ) (log : List Call),
    roller.ServesOnRecord request state log
  | .die sides => roller.servesOnRecord_die sides
  | .token token => roller.servesOnRecord_token token
  | .kept token policy => roller.servesOnRecord_kept token policy
  | .text text => roller.servesOnRecord_text text

/-- The calls of a request take the roller from the first state to the last. -/
theorem Serves.runs {roller : Roller σ} {state final : σ} {request : Request} {served : Served}
    {calls : List Call} (h : roller.Serves state request served calls final) :
    roller.Runs state calls final := by
  cases h with
  | die hdie => exact .call hdie (.done _)
  | noSuchDie => exact .done _
  | refused => exact .done _
  | token _ hdrawn => exact hdrawn.runs
  | kept _ hdrawn => exact hdrawn.runs
  | text _ hdrawn => exact hdrawn.runs

/-- A request calls for dice with sides, if the die that it may ask for has some. -/
theorem Serves.one_le_sides {roller : Roller σ} {state final : σ} {request : Request}
    {served : Served} {calls : List Call} (h : roller.Serves state request served calls final)
    (hdie : ∀ sides, request = .die sides → 1 ≤ sides) : ∀ c ∈ calls, 1 ≤ c.sides := by
  have hdrawn : ∀ {expressions results}, roller.Drawn state expressions results calls final →
      ∀ c ∈ calls, 1 ≤ c.sides :=
    fun hdrawn c hc => Nat.le_trans (by decide) (hdrawn.two_le_sides c hc)
  cases h with
  | die =>
    intro c hc
    rw [List.mem_singleton.mp hc]
    exact hdie _ rfl
  | noSuchDie => simp
  | refused => simp
  | token _ h => exact hdrawn h
  | kept _ h => exact hdrawn h
  | text _ h => exact hdrawn h

/-! ### Sessions -/

/-- **The answers of a session are those of its calls,** and the record is of them. -/
theorem servesAll_serveAll : ∀ (requests : List Request) (state : σ) (log : List Call), ∃ calls,
    roller.recorded.serveAll requests (state, log) =
      ((roller.serveAll requests state).1, (roller.serveAll requests state).2, log ++ calls) ∧
    roller.ServesAll state requests (roller.serveAll requests state).1 calls
      (roller.serveAll requests state).2
  | [], state, log => ⟨[], by simp [serveAll], .done state⟩
  | request :: rest, state, log => by
    obtain ⟨calls, hrecord, hserves⟩ := roller.servesOnRecord request state log
    obtain ⟨others, hrecord', hrest⟩ :=
      servesAll_serveAll rest (roller.serve request state).2 (log ++ calls)
    refine ⟨calls ++ others, ?_, .serve hserves hrest⟩
    simp only [serveAll, hrecord, hrecord', List.append_assoc]

theorem servesAll_draws (requests : List Request) (state : σ) :
    roller.ServesAll state requests (roller.serveAll requests state).1 (roller.draws requests state)
      (roller.serveAll requests state).2 := by
  obtain ⟨calls, hrecord, hserves⟩ := roller.servesAll_serveAll requests state []
  rwa [draws, hrecord]

theorem ServesAll.runs {roller : Roller σ} {state final : σ} {requests : List Request}
    {answers : List Served} {calls : List Call}
    (h : roller.ServesAll state requests answers calls final) : roller.Runs state calls final := by
  induction h with
  | done state => exact .done state
  | serve hfirst _ ih => exact hfirst.runs.append ih

theorem ServesAll.one_le_sides {roller : Roller σ} {state final : σ} {requests : List Request}
    {answers : List Served} {calls : List Call}
    (h : roller.ServesAll state requests answers calls final)
    (hdie : ∀ sides, .die sides ∈ requests → 1 ≤ sides) : ∀ c ∈ calls, 1 ≤ c.sides := by
  induction h with
  | done => simp
  | serve hfirst _ ih =>
    intro c hc
    rcases List.mem_append.mp hc with hc | hc
    · refine hfirst.one_le_sides (fun sides hsides => hdie sides ?_) c hc
      rw [hsides]
      exact List.mem_cons_self
    · exact ih (fun sides hsides => hdie sides (List.mem_cons_of_mem _ hsides)) c hc

/-- Dice that show their own faces do so in every call. -/
theorem Runs.face_mem {roller : Roller σ} (hdie : roller.OnDie) {state final : σ}
    {calls : List Call} (h : roller.Runs state calls final) (hsides : ∀ c ∈ calls, 1 ≤ c.sides) :
    ∀ c ∈ calls, 1 ≤ c.face ∧ c.face ≤ c.sides := by
  induction h with
  | done => simp
  | @call state middle final first calls hfirst _ ih =>
    intro c hc
    rcases List.mem_cons.mp hc with rfl | hc
    · have hmem := hdie c.sides (hsides c List.mem_cons_self) state
      rwa [hfirst] at hmem
    · exact ih (fun c hc => hsides c (List.mem_cons_of_mem _ hc)) c hc

end Roller

namespace Script

/-! ### The faces of a script in turn -/

/-- The face that the die at place `k` shows: that of the script, counted round and
round, cut to the die; and 1 if the script is empty. -/
def shown (faces : List Nat) (k sides : Nat) : Nat :=
  if h : 0 < faces.length then max 1 (min (faces.get ⟨k % faces.length, Nat.mod_lt k h⟩) sides)
  else 1

theorem face_eq_shown (faces : List Nat) (k : Nat) {sides : Nat} (hsides : 1 ≤ sides) :
    face ⟨faces, k⟩ sides = shown faces k sides := by
  unfold shown face
  by_cases h : 0 < faces.length
  · have hget : faces[k % faces.length]? = some (faces.get ⟨k % faces.length, Nat.mod_lt k h⟩) :=
      List.getElem?_eq_getElem (Nat.mod_lt k h)
    simp only [hget, dif_pos h]
    omega
  · have hnil : faces = [] := List.length_eq_zero_iff.mp (by omega)
    subst hnil
    rfl

/-- **The calls of a run show the faces in turn,** from the place of the script on. -/
theorem face_eq_shown_of_runs {faces : List Nat} : ∀ {calls : List Call} {place : Nat}
    {final : Script}, roller.Runs ⟨faces, place⟩ calls final → (∀ c ∈ calls, 1 ≤ c.sides) →
    place + calls.length < 18446744073709551616 → ∀ k (hk : k < calls.length),
    calls[k].face = shown faces (place + k) calls[k].sides
  | [], _, _, _, _, _, k, hk => absurd hk (Nat.not_lt_zero k)
  | c :: calls, place, final, .call hdie hrest, hsides, hlength, k, hk => by
    rw [List.length_cons] at hlength
    obtain ⟨hface, hmiddle⟩ := Prod.mk.inj hdie
    cases k with
    | zero =>
      rw [List.getElem_cons_zero, ← hface]
      exact face_eq_shown faces place (hsides c List.mem_cons_self)
    | succ k =>
      have hothers : ∀ c ∈ calls, 1 ≤ c.sides := fun c hc => hsides c (List.mem_cons_of_mem _ hc)
      rw [List.getElem_cons_succ]
      by_cases hne : faces = []
      · -- an empty script stays where it is, and shows 1 from every place
        subst hne
        rw [← hmiddle, advance, if_pos rfl] at hrest
        exact face_eq_shown_of_runs hrest hothers (by omega) k (Nat.lt_of_succ_lt_succ hk)
      · rw [← hmiddle, advance_of_lt hne (by omega)] at hrest
        have ih := face_eq_shown_of_runs hrest hothers (by omega) k (Nat.lt_of_succ_lt_succ hk)
        rwa [Nat.add_right_comm, Nat.add_assoc place k 1] at ih

/-- **A script is replayed across a session.** Whatever the faces and the requests,
the answers are those of the calls that the session makes; a request that is
refused makes none, so it skips no face. The die at place `k` shows the face of
the script at place `k`, counted round and round and cut to the die, or 1 if the
script is empty, as long as fewer than 2⁶⁴ dice are drawn. In any number of
dice each shows one of its faces. -/
theorem session_replays_script (faces : List Nat) (requests : List Request)
    (hdie : ∀ sides, .die sides ∈ requests → 1 ≤ sides) :
    ∃ calls, roller.draws requests (ofFaces faces) = calls ∧
      roller.ServesAll (ofFaces faces) requests (roller.serveAll requests (ofFaces faces)).1 calls
        (roller.serveAll requests (ofFaces faces)).2 ∧
      (calls.length < 18446744073709551616 →
        ∀ k (hk : k < calls.length), calls[k].face = shown faces k calls[k].sides) ∧
      ∀ c ∈ calls, 1 ≤ c.face ∧ c.face ≤ c.sides := by
  have hserves := roller.servesAll_draws requests (ofFaces faces)
  have hsides := hserves.one_le_sides hdie
  refine ⟨_, rfl, hserves, fun hlength k hk => ?_, ?_⟩
  · have hface := face_eq_shown_of_runs hserves.runs hsides (by rwa [Nat.zero_add]) k hk
    rwa [Nat.zero_add] at hface
  · exact hserves.runs.face_mem Roller.onDie_script hsides

/-- A script of three faces over two dice of a pair, a token that is refused, a text
and a lone die: six dice show the faces in turn. -/
theorem session_replays_script_past_refusal :
    let requests : List Request := [.kept "d20".toList .disadvantage, .token "0d6".toList,
      .text "2d6 for d4".toList, .die 8]
    (∀ sides, .die sides ∈ requests → 1 ≤ sides) ∧
    ∃ calls, roller.draws requests (ofFaces [17, 9, 0]) = calls ∧
      calls.map (·.face) = [17, 9, 1, 6, 4, 1] ∧
      ∀ k (hk : k < calls.length), calls[k].face = shown [17, 9, 0] k calls[k].sides := by
  intro requests
  have hdie : ∀ sides, .die sides ∈ requests → 1 ≤ sides := by
    intro sides h
    simp [requests] at h
    omega
  obtain ⟨calls, hcalls, -, hshown, -⟩ := session_replays_script [17, 9, 0] requests hdie
  have hsix : calls.map (·.face) = [17, 9, 1, 6, 4, 1] := by
    rw [← hcalls]
    rfl
  have hlength : calls.length = 6 := by simpa using congrArg List.length hsix
  exact ⟨hdie, calls, hcalls, hsix, hshown (by omega)⟩

end Script
end DiceTower
