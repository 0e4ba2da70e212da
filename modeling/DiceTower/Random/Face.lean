/-
# Fair faces from random words

A 32-bit word is scaled to a die by multiplying it with the number of sides:
the high half of the product counts the faces from zero, and the low half
tells whether the word is accepted. Words are rejected where a face would get
one more of them than the others, and another word is drawn.

Drawing ends with the first accepted word. At least half of all words are
accepted, so no die waits long; a generator that gave rejected words only
would never show a face, and the die is then said to show 1.

Key definitions: `Face.zone`, `Face.accept?`, `Face.draw?`, `Xoshiro.roller`.
Key theorems: `Face.accept?_mem`, `Face.draw?_mem`, `Face.draw?_of_rejected`.
-/
import DiceTower.Random.Xoshiro
import DiceTower.Roll.Roller

namespace DiceTower
namespace Face

/-- The greatest low half that is accepted. -/
def zone (sides : Nat) : Nat := 4294967295 - (4294967295 - sides + 1) % sides

/-- The face that a word gives on a die, unless it is rejected. -/
def accept? (sides : Nat) (word : UInt32) : Option Nat :=
  let product := word.toNat * sides
  if product % 4294967296 ≤ zone sides then some (1 + product / 4294967296) else none

/-- The face of the first accepted word, and the generator behind that word. -/
def draw? (sides : Nat) (g : Xoshiro) : Option (Nat × Xoshiro) :=
  match accept? sides g.next32.1 with
  | some face => some (face, g.next32.2)
  -- a rejected word would favour some faces, so the next one decides
  | none => (draw? (g := g.next32.2)) sides
partial_fixpoint

/-- An accepted word gives one of the die's faces. -/
theorem accept?_mem {sides face : Nat} (hs : 1 ≤ sides) {word : UInt32}
    (h : accept? sides word = some face) : 1 ≤ face ∧ face ≤ sides := by
  have hw : word.toNat < 4294967296 := word.toNat_lt
  simp only [accept?] at h
  split at h
  · have hf := Option.some.inj h
    have : word.toNat * sides / 4294967296 < sides :=
      Nat.div_lt_of_lt_mul (Nat.mul_lt_mul_of_pos_right hw hs)
    omega
  · simp at h

/-- An accepted word ends the drawing. -/
theorem draw?_of_accepted {sides face : Nat} {g : Xoshiro}
    (h : accept? sides g.next32.1 = some face) : draw? sides g = some (face, g.next32.2) := by
  rw [draw?, h]

/-- A rejected word is passed over, and another one is drawn. -/
theorem draw?_of_rejected {sides : Nat} {g : Xoshiro} (h : accept? sides g.next32.1 = none) :
    draw? sides g = draw? sides g.next32.2 := by
  rw [draw?, h]

/-- A drawn face is one of the die's. -/
theorem draw?_mem {sides : Nat} (h : 1 ≤ sides) {g : Xoshiro} {shown : Nat × Xoshiro}
    (hd : draw? sides g = some shown) : 1 ≤ shown.1 ∧ shown.1 ≤ sides := by
  refine draw?.partial_correctness (fun sides _ shown => 1 ≤ sides → 1 ≤ shown.1 ∧ shown.1 ≤ sides)
    ?_ sides g shown hd h
  intro next ih sides g shown hs h
  cases ha : accept? sides g.next32.1 with
  | some face =>
    rw [ha] at hs
    cases hs
    exact accept?_mem h ha
  | none =>
    rw [ha] at hs
    exact ih _ _ _ hs h

end Face

/-- The roller that draws its faces from a generator. It has no die without sides. -/
def Xoshiro.roller : Roller Xoshiro where
  die sides g := (Face.draw? sides g).getD (1, g)
  hasDie sides := sides != 0

end DiceTower
