/-
# Rolling with any source of faces

A roller is a state machine that is asked for one die at a time. An
expression asks it for as many dice as its count says, one after another. A
request is parsed as a whole before the first die is rolled, so one that is
refused leaves the roller as it was.

A text is rolled by the notations among its words: with none the whole text
is taken for one expression, with one the roll is simple, and with more it is
a batch in the order of the text.

Key definitions: `Roller`, `Roller.roll`, `Roller.rollKept`,
`Roller.rollText`.
Key theorems: `Roller.length_rollDice`, `Roller.rollKept_of_error`,
`Roller.rollAll_append`.
-/
import DiceTower.Dice.Parse
import DiceTower.Roll.Basic

namespace DiceTower

/-- A source of faces: a state machine that is asked for one die at a time. -/
structure Roller (σ : Type) where
  /-- The face that a die of the given number of sides shows, and the next state. -/
  die : Nat → σ → Nat × σ
  /-- Whether the source has a die of that many sides at all. -/
  hasDie : Nat → Bool

namespace Roller

variable {σ : Type} (roller : Roller σ)

/-- The faces of several dice of one kind, rolled one after another. -/
def rollDice (sides : Nat) : Nat → σ → List Nat × σ
  | 0, state => ([], state)
  | count + 1, state =>
    let (face, state) := roller.die sides state
    let (faces, state) := rollDice sides count state
    (face :: faces, state)

/-- The result of an expression. -/
def roll (e : Expression) (state : σ) : Result × σ :=
  let (faces, state) := roller.rollDice e.sides e.count state
  (Result.ofFaces e faces, state)

/-- The results of several expressions, one after another. -/
def rollAll : List Expression → σ → List Result × σ
  | [], state => ([], state)
  | e :: rest, state =>
    let (result, state) := roller.roll e state
    let (results, state) := rollAll rest state
    (result :: results, state)

/-- Rolls one expression twice and keeps one result. -/
def rollTwice (e : Expression) (policy : Policy) (state : σ) : Kept × σ :=
  let (first, state) := roller.roll e state
  let (second, state) := roller.roll e state
  (Kept.choose first second policy, state)

/-- Rolls the expression that a token stands for twice and keeps one result. -/
def rollKept (token : Text) (policy : Policy) (state : σ) : Except DiceError Kept × σ :=
  match Expression.parse token with
  | .error e => (.error e, state)
  | .ok e =>
    let (pair, state) := roller.rollTwice e policy state
    (.ok pair, state)

/-- Rolls the expression that a token stands for. -/
def rollToken (token : Text) (state : σ) : Except DiceError Result × σ :=
  match Expression.parse token with
  | .error e => (.error e, state)
  | .ok e =>
    let (result, state) := roller.roll e state
    (.ok result, state)

/-- Rolls the notations among the words of a text. -/
def rollText (text : Text) (state : σ) : Except DiceError Roll × σ :=
  match Notation.tokens text with
  | [] =>
    let (outcome, state) := roller.rollToken (Text.trim text) state
    (outcome.map Roll.simple, state)
  | [token] =>
    let (outcome, state) := roller.rollToken token state
    (outcome.map Roll.simple, state)
  | tokens =>
    match Expression.parseAll tokens with
    | .error e => (.error e, state)
    | .ok expressions =>
      let (results, state) := roller.rollAll expressions state
      (.ok (.batch (Batch.ofResults results)), state)

/-- One face is rolled for each die. -/
theorem length_rollDice (sides count : Nat) (state : σ) :
    (roller.rollDice sides count state).1.length = count := by
  induction count generalizing state with
  | zero => rfl
  | succ count ih => simp [rollDice, ih]

/-- A refused token leaves the roller as it was. -/
theorem rollKept_of_error {token : Text} {e : DiceError} (h : Expression.parse token = .error e)
    (policy : Policy) (state : σ) : roller.rollKept token policy state = (.error e, state) := by
  simp [rollKept, h]

/-- Two lists of expressions are rolled like one. -/
theorem rollAll_append (first second : List Expression) (state : σ) :
    roller.rollAll (first ++ second) state =
      ((roller.rollAll first state).1 ++ (roller.rollAll second (roller.rollAll first state).2).1,
        (roller.rollAll second (roller.rollAll first state).2).2) := by
  induction first generalizing state with
  | nil => rfl
  | cons e rest ih => simp [rollAll, ih]

end Roller
end DiceTower
