/-
# A dealer of generators

A dealer answers requests for dice. Each request gets a generator of its own,
seeded with the next eight words of one ChaCha20 key stream, so what a
request draws has no influence on the others. Two requests share a block of
the stream.

A dealer keeps its key. When the key is as old as the settings allow, the
command line takes another dealer; that is a matter of the clock and not
covered here.

Key definitions: `Dealer`, `Dealer.ofSeed`, `Dealer.generator`,
`Dealer.rollText`, `Dealer.rollKept`, `Dealer.serve`, `Dealer.serveAll`.
Key theorem: `Dealer.served_serve`.
-/
import DiceTower.Random.ChaCha
import DiceTower.Random.Face
import DiceTower.Roll.Session

namespace DiceTower

/-- A key stream, and how many requests were served from it. -/
structure Dealer where
  /-- The key of the stream. -/
  key : ChaCha.Key
  /-- The number of requests served so far. -/
  served : Nat
deriving DecidableEq

namespace Dealer

/-- The dealer of a 64-bit seed. -/
def ofSeed (seed : UInt64) : Dealer := ⟨ChaCha.Key.ofSeed seed, 0⟩

/-- The dealer whose key is thirty-two random octets. -/
def ofOctets (octets : List UInt8) : Dealer := ⟨ChaCha.Key.ofOctets octets, 0⟩

/-- Two words as one, the first in the low half. -/
def join (low high : UInt32) : UInt64 := low.toUInt64 ||| (high.toUInt64 <<< 32)

/-- The generator seeded with two rows of words. -/
def seeded (first second : ChaCha.Row) : Xoshiro :=
  Xoshiro.ofWords (join first.w0 first.w1) (join first.w2 first.w3) (join second.w0 second.w1)
    (join second.w2 second.w3)

/-- The generator of the next request. -/
def generator (d : Dealer) : Xoshiro :=
  let block := ChaCha.block d.key (UInt64.ofNat (d.served / 2))
  if d.served % 2 = 0 then seeded block.a block.b else seeded block.c block.d

/-- The dealer after one request. -/
def advance (d : Dealer) : Dealer := { d with served := d.served + 1 }

/-- Rolls the notations among the words of a text. -/
def rollText (text : Text) (d : Dealer) : Except DiceError Roll × Dealer :=
  ((Xoshiro.roller.rollText text d.generator).1, d.advance)

/-- Rolls the expression that a token stands for twice and keeps one result. -/
def rollKept (token : Text) (policy : Policy) (d : Dealer) : Except DiceError Roll × Dealer :=
  ((Xoshiro.roller.rollKept token policy d.generator).1.map Roll.kept, d.advance)

/-! ### Sessions -/

/-- A request to a dealer: a text, or a token with the policy it is rolled under. -/
structure Order where
  /-- The text to be rolled. -/
  text : Text
  /-- The policy, if one is asked for. -/
  policy : Option Policy
deriving DecidableEq

/-- The answer to one order. An order that is refused counts like any other. -/
def serve (order : Order) (d : Dealer) : Except DiceError Roll × Dealer :=
  match order.policy with
  | none => rollText order.text d
  | some policy => rollKept order.text policy d

/-- The answers to several orders, served one after another. -/
def serveAll : List Order → Dealer → List (Except DiceError Roll) × Dealer
  | [], d => ([], d)
  | order :: rest, d =>
    let (outcome, d) := serve order d
    let (outcomes, d) := serveAll rest d
    (outcome :: outcomes, d)

/-- Every order moves the dealer by the same amount. -/
theorem served_serve (order : Order) (d : Dealer) : (serve order d).2 = d.advance := by
  unfold serve
  split <;> rfl

end Dealer
end DiceTower
