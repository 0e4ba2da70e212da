/-
# The ChaCha20 key stream

A block of sixteen 32-bit words is computed from a key of eight words, a
64-bit block counter and a stream number, which is zero here. The words stand
in four rows of four. A round mixes the four columns at once; turning the
rows before it and back after it makes it mix the diagonals.

The key of a 64-bit seed is the output of a permuted congruential generator:
each step multiplies and adds, and a word is cut out of the state at a place
that the state itself chooses.

Key definitions: `ChaCha.Key`, `ChaCha.block`, `ChaCha.Key.ofSeed`,
`ChaCha.Key.ofOctets`.
-/

namespace DiceTower
namespace ChaCha

/-! ### Rows of four words -/

/-- Four words side by side. -/
structure Row where
  w0 : UInt32
  w1 : UInt32
  w2 : UInt32
  w3 : UInt32
deriving DecidableEq

namespace Row

/-- The sum, word by word. -/
def add (a b : Row) : Row := ⟨a.w0 + b.w0, a.w1 + b.w1, a.w2 + b.w2, a.w3 + b.w3⟩

/-- The exclusive or, word by word. -/
def xor (a b : Row) : Row := ⟨a.w0 ^^^ b.w0, a.w1 ^^^ b.w1, a.w2 ^^^ b.w2, a.w3 ^^^ b.w3⟩

/-- The word with its bits turned to the left. -/
def turnBits (bits x : UInt32) : UInt32 := (x <<< bits) ||| (x >>> (32 - bits))

/-- Every word with its bits turned to the left. -/
def turnLeft (bits : UInt32) (a : Row) : Row :=
  ⟨turnBits bits a.w0, turnBits bits a.w1, turnBits bits a.w2, turnBits bits a.w3⟩

/-- The words moved one place to the left, the first to the end. -/
def turn (a : Row) : Row := ⟨a.w1, a.w2, a.w3, a.w0⟩

end Row

/-! ### Blocks -/

/-- Sixteen words in four rows. -/
structure Block where
  a : Row
  b : Row
  c : Row
  d : Row
deriving DecidableEq

namespace Block

/-- Mixes the columns. -/
def mixColumns (s : Block) : Block :=
  let a := s.a.add s.b
  let d := (s.d.xor a).turnLeft 16
  let c := s.c.add d
  let b := (s.b.xor c).turnLeft 12
  let a := a.add b
  let d := (d.xor a).turnLeft 8
  let c := c.add d
  let b := (b.xor c).turnLeft 7
  ⟨a, b, c, d⟩

/-- Mixes the columns, then the diagonals. -/
def doubleRound (s : Block) : Block :=
  let s := s.mixColumns
  let s := mixColumns ⟨s.a, s.b.turn, s.c.turn.turn, s.d.turn.turn.turn⟩
  ⟨s.a, s.b.turn.turn.turn, s.c.turn.turn, s.d.turn⟩

/-- The sum of two blocks, word by word. -/
def add (s t : Block) : Block := ⟨s.a.add t.a, s.b.add t.b, s.c.add t.c, s.d.add t.d⟩

end Block

/-- The eight words of a key. -/
structure Key where
  low : Row
  high : Row
deriving DecidableEq

/-- The block that the rounds start from. -/
def start (key : Key) (counter : UInt64) : Block where
  a := ⟨0x61707865, 0x3320646e, 0x79622d32, 0x6b206574⟩
  b := key.low
  c := key.high
  d := ⟨counter.toUInt32, (counter >>> 32).toUInt32, 0, 0⟩

/-- The block of the key stream at a counter: ten double rounds, and the block
they started from added. -/
def block (key : Key) (counter : UInt64) : Block :=
  let first := start key counter
  (Nat.repeat Block.doubleRound 10 first).add first

/-! ### The key of a seed -/

/-- The next state of the generator that keys are taken from. -/
def Key.step (x : UInt64) : UInt64 := x * 6364136223846793005 + 11634580027462260723

/-- The word that a state gives. -/
def Key.word (x : UInt64) : UInt32 :=
  let bits := (((x >>> 18) ^^^ x) >>> 27).toUInt32
  let places := (x >>> 59).toUInt32
  (bits >>> places) ||| (bits <<< (32 - places))

/-- Four words in a row, and the state after them. -/
def Key.row (x : UInt64) : Row × UInt64 :=
  let x0 := step x
  let x1 := step x0
  let x2 := step x1
  let x3 := step x2
  (⟨word x0, word x1, word x2, word x3⟩, x3)

/-- The key of a 64-bit seed. -/
def Key.ofSeed (seed : UInt64) : Key :=
  let (low, x) := row seed
  let (high, _) := row x
  ⟨low, high⟩

/-! ### The key of octets -/

/-- The word of four octets, the lowest first; octets that are missing count as
zero. -/
def Key.wordAt (octets : List UInt8) (place : Nat) : UInt32 :=
  let octet (n : Nat) : UInt32 := ((octets[4 * place + n]?).getD 0).toUInt32
  octet 0 ||| (octet 1 <<< 8) ||| (octet 2 <<< 16) ||| (octet 3 <<< 24)

/-- The key of thirty-two octets. -/
def Key.ofOctets (octets : List UInt8) : Key :=
  let word := wordAt octets
  ⟨⟨word 0, word 1, word 2, word 3⟩, ⟨word 4, word 5, word 6, word 7⟩⟩

end ChaCha
end DiceTower
