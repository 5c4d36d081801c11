/-!
# A keyed stream of words

The ChaCha block function with twelve rounds, read as a stream of 64-bit words that can be asked
for by position.  The key is grown from a 64-bit seed by a permuted congruential generator.
Nothing is kept between two words, so the stream is a function and not a process.
-/

namespace Aquarium.Random

/-- The sixteen words of a block. -/
abbrev Block := Vector UInt32 16

/-- The eight words of a key. -/
abbrev Key := Vector UInt32 8

/-- Rotation to the left. -/
def rotateLeft (x k : UInt32) : UInt32 := (x <<< k) ||| (x >>> (32 - k))

/-- Rotation to the right. -/
def rotateRight (x k : UInt32) : UInt32 := (x >>> k) ||| (x <<< (32 - k))

/-! ## Growing a key from a seed -/

/-- One step of the congruential generator. -/
def nextState (s : UInt64) : UInt64 := s * 6364136223846793005 + 11634580027462260723

/-- The output of the congruential generator in a given state. -/
def outputWord (s : UInt64) : UInt32 :=
  rotateRight (((s >>> 18) ^^^ s) >>> 27).toUInt32 (s >>> 59).toUInt32

/-- The key for a seed: the outputs of the next eight states. -/
def keyOfSeed (seed : UInt64) : Key :=
  Vector.ofFn fun i => outputWord (Nat.repeat nextState (i.val + 1) seed)

/-- The key in 32 bytes, of which each word has four, the lowest first. -/
def keyOfBytes (bytes : List UInt8) : Key :=
  Vector.ofFn fun i =>
    ((bytes.drop (4 * i.val)).take 4).foldr (fun b w => (w <<< 8) ||| b.toUInt32) 0

/-! ## The block function -/

/-- Mixes four words of a block. -/
def quarterRound (v : Block) (a b c d : Fin 16) : Block :=
  let v := v.set a (v[a] + v[b])
  let v := v.set d (rotateLeft (v[d] ^^^ v[a]) 16)
  let v := v.set c (v[c] + v[d])
  let v := v.set b (rotateLeft (v[b] ^^^ v[c]) 12)
  let v := v.set a (v[a] + v[b])
  let v := v.set d (rotateLeft (v[d] ^^^ v[a]) 8)
  let v := v.set c (v[c] + v[d])
  v.set b (rotateLeft (v[b] ^^^ v[c]) 7)

/-- Mixes the columns and then the diagonals of a block. -/
def doubleRound (v : Block) : Block :=
  let v := quarterRound v 0 4 8 12
  let v := quarterRound v 1 5 9 13
  let v := quarterRound v 2 6 10 14
  let v := quarterRound v 3 7 11 15
  let v := quarterRound v 0 5 10 15
  let v := quarterRound v 1 6 11 12
  let v := quarterRound v 2 7 8 13
  quarterRound v 3 4 9 14

/-- The block before mixing: four constants, the key, the number of the block, and zeros. -/
def initialBlock (key : Key) (number : UInt64) : Block :=
  #v[0x61707865, 0x3320646e, 0x79622d32, 0x6b206574,
    key[0], key[1], key[2], key[3], key[4], key[5], key[6], key[7],
    number.toUInt32, (number >>> 32).toUInt32, 0, 0]

/-- The block with a given number. -/
def block (key : Key) (number : UInt64) : Block :=
  let start := initialBlock key number
  Vector.zipWith (· + ·) (Nat.repeat doubleRound 6 start) start

/-- The 64-bit word at a position of the stream: two words of a block, the first one low. -/
def word (key : Key) (position : Nat) : UInt64 :=
  let b := block key (UInt64.ofNat (position / 8))
  let i := position % 8
  have : 2 * i + 1 < 16 := by omega
  (b[2 * i]).toUInt64 ||| ((b[2 * i + 1]).toUInt64 <<< 32)

/-- The number of words after which the stream repeats. -/
def period : Nat := 1 <<< 67

end Aquarium.Random
