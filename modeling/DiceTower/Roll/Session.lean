/-
# Requests that share a roller

A session is a list of requests served one after another by the same roller:
single dice, single expressions, pairs under a policy, and whole texts. A
request that is refused draws nothing.

Key definitions: `Request`, `Served`, `Roller.serve`, `Roller.serveAll`.
Key theorem: `Roller.serveAll_append`.
-/
import DiceTower.Roll.Roller

namespace DiceTower

/-- What a player may ask of a roller. -/
inductive Request where
  /-- One die. -/
  | die (sides : Nat)
  /-- The expression that a token stands for. -/
  | token (token : Text)
  /-- The expression that a token stands for, rolled twice. -/
  | kept (token : Text) (policy : Policy)
  /-- The notations among the words of a text. -/
  | text (text : Text)
deriving DecidableEq

/-- What a request comes to. -/
inductive Served where
  /-- The face of one die. -/
  | face (face : Nat)
  /-- The roller has no such die. -/
  | noSuchDie
  /-- A roll. -/
  | roll (roll : Roll)
  /-- The request names no expression. -/
  | refused (error : DiceError)
deriving DecidableEq

/-- A roll, or the reason why there is none. -/
def Served.ofOutcome : Except DiceError Roll → Served
  | .ok made => .roll made
  | .error e => .refused e

namespace Roller

variable {σ : Type} (roller : Roller σ)

/-- The answer to one request. -/
def serve (request : Request) (state : σ) : Served × σ :=
  match request with
  | .die sides =>
    if roller.hasDie sides then
      let (face, state) := roller.die sides state
      (.face face, state)
    else (.noSuchDie, state)
  | .token token =>
    let (outcome, state) := roller.rollToken token state
    (.ofOutcome (outcome.map Roll.simple), state)
  | .kept token policy =>
    let (outcome, state) := roller.rollKept token policy state
    (.ofOutcome (outcome.map Roll.kept), state)
  | .text text =>
    let (outcome, state) := roller.rollText text state
    (.ofOutcome outcome, state)

/-- The answers to several requests, served in order. -/
def serveAll : List Request → σ → List Served × σ
  | [], state => ([], state)
  | request :: rest, state =>
    let (served, state) := roller.serve request state
    let (others, state) := serveAll rest state
    (served :: others, state)

/-- A session goes on from where its first requests left the roller. -/
theorem serveAll_append (first second : List Request) (state : σ) :
    roller.serveAll (first ++ second) state =
      ((roller.serveAll first state).1 ++
          (roller.serveAll second (roller.serveAll first state).2).1,
        (roller.serveAll second (roller.serveAll first state).2).2) := by
  induction first generalizing state with
  | nil => rfl
  | cons request rest ih => simp [serveAll, ih]

end Roller
end DiceTower
