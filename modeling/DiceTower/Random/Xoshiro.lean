/-
# Xoshiro256++

A generator with four 64-bit words of state. Its 32-bit output is the high
half of its 64-bit output. The state of four zeros would repeat itself
forever, so the state of seed 0 stands in for it.

Key definitions: `Xoshiro`, `Xoshiro.next`, `Xoshiro.next32`,
`Xoshiro.ofSeed`, `Xoshiro.ofWords`.
-/
import DiceTower.Random.SplitMix

namespace DiceTower

/-- The state of the generator. -/
structure Xoshiro where
  s0 : UInt64
  s1 : UInt64
  s2 : UInt64
  s3 : UInt64
deriving DecidableEq

namespace Xoshiro

/-- The word with its bits turned to the left. -/
def turnLeft (x : UInt64) (bits : UInt64) : UInt64 := (x <<< bits) ||| (x >>> (64 - bits))

/-- The 64-bit output of a state. -/
def output (g : Xoshiro) : UInt64 := turnLeft (g.s0 + g.s3) 23 + g.s0

/-- The state after one output. -/
def advance (g : Xoshiro) : Xoshiro :=
  let s2 := g.s2 ^^^ g.s0
  let s3 := g.s3 ^^^ g.s1
  { s0 := g.s0 ^^^ s3
    s1 := g.s1 ^^^ s2
    s2 := s2 ^^^ (g.s1 <<< 17)
    s3 := turnLeft s3 45 }

/-- The next 64-bit output, and the state after it. -/
def next (g : Xoshiro) : UInt64 × Xoshiro := (g.output, g.advance)

/-- The next 32-bit output, and the state after it. -/
def next32 (g : Xoshiro) : UInt32 × Xoshiro := ((g.output >>> 32).toUInt32, g.advance)

/-- The state of a 64-bit seed: its first four SplitMix64 outputs. -/
def ofSeed (seed : UInt64) : Xoshiro where
  s0 := SplitMix.output seed 1
  s1 := SplitMix.output seed 2
  s2 := SplitMix.output seed 3
  s3 := SplitMix.output seed 4

/-- The state of four given words. -/
def ofWords (s0 s1 s2 s3 : UInt64) : Xoshiro :=
  if s0 = 0 ∧ s1 = 0 ∧ s2 = 0 ∧ s3 = 0 then ofSeed 0 else ⟨s0, s1, s2, s3⟩

end Xoshiro
end DiceTower
