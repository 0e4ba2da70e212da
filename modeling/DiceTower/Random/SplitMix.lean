/-
# SplitMix64

A 64-bit counter that moves by a fixed odd number; each output is the counter
with its bits mixed. It spreads one seed over the words of a larger state.

Key definitions: `SplitMix.step`, `SplitMix.mix`, `SplitMix.output`.
-/

namespace DiceTower
namespace SplitMix

/-- The distance between two counters. -/
def step : UInt64 := 0x9e3779b97f4a7c15

/-- The mixed bits of a counter. -/
def mix (x : UInt64) : UInt64 :=
  let x := (x ^^^ (x >>> 30)) * 0xbf58476d1ce4e5b9
  let x := (x ^^^ (x >>> 27)) * 0x94d049bb133111eb
  x ^^^ (x >>> 31)

/-- The output number `n` of the seed, counted from 1. -/
def output (seed n : UInt64) : UInt64 := mix (seed + n * step)

end SplitMix
end DiceTower
