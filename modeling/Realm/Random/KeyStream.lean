/-! # A stream of random words

The words of the ChaCha stream cipher with twelve rounds, for a key that is spread from a single
number. -/

namespace Realm.Random

/-! ## Blocks -/

abbrev Block := Vector UInt32 16

def rotateLeft (w : UInt32) (n : UInt32) : UInt32 := (w <<< n) ||| (w >>> (32 - n))

/-- Mixes four words of a block. -/
def quarterRound (a b c d : Fin 16) (s : Block) : Block :=
  let s := s.set a (s[a] + s[b])
  let s := s.set d (rotateLeft (s[d] ^^^ s[a]) 16)
  let s := s.set c (s[c] + s[d])
  let s := s.set b (rotateLeft (s[b] ^^^ s[c]) 12)
  let s := s.set a (s[a] + s[b])
  let s := s.set d (rotateLeft (s[d] ^^^ s[a]) 8)
  let s := s.set c (s[c] + s[d])
  s.set b (rotateLeft (s[b] ^^^ s[c]) 7)

/-- A round down the columns, then one along the diagonals. -/
def doubleRound (s : Block) : Block :=
  let s := quarterRound 0 4 8 12 s
  let s := quarterRound 1 5 9 13 s
  let s := quarterRound 2 6 10 14 s
  let s := quarterRound 3 7 11 15 s
  let s := quarterRound 0 5 10 15 s
  let s := quarterRound 1 6 11 12 s
  let s := quarterRound 2 7 8 13 s
  quarterRound 3 4 9 14 s

abbrev Key := Vector UInt32 8

/-- Four fixed words, the key, the number of the block in two words, and two zeros. -/
def startBlock (k : Key) (number : Nat) : Block :=
  #v[0x61707865, 0x3320646e, 0x79622d32, 0x6b206574,
    k[0], k[1], k[2], k[3], k[4], k[5], k[6], k[7],
    .ofNat number, .ofNat (number >>> 32), 0, 0]

/-- The words of one block: six double rounds on the start block, added to it. -/
def block (k : Key) (number : Nat) : Block :=
  let start := startBlock k number
  Vector.zipWith (· + ·) (Nat.repeat doubleRound 6 start) start

/-! ## Keys -/

/-- One step of a linear congruence on 64 bits. -/
def spreadStep (state : UInt64) : UInt64 := state * 6364136223846793005 + 11634580027462260723

/-- A word out of a state: its high half folded onto itself and rotated by its top five bits. -/
def spreadWord (state : UInt64) : UInt32 :=
  let word := (((state >>> 18) ^^^ state) >>> 27).toUInt32
  let turn := (state >>> 59).toUInt32
  (word >>> turn) ||| (word <<< ((32 - turn) % 32))

/-- The key for a seed: the words of the next eight states. -/
def keyOfSeed (seed : UInt64) : Key :=
  Vector.ofFn fun i => spreadWord (Nat.repeat spreadStep (i.val + 1) seed)

end Realm.Random

namespace Realm

/-- A stream of random words, and how many of them have been drawn. -/
structure KeyStream where
  key : Random.Key
  /-- The block that holds the next word, kept so as not to compute it for each of its words. -/
  current : Random.Block
  drawn : Nat

namespace KeyStream

def ofSeed (seed : UInt64) : KeyStream :=
  let key := Random.keyOfSeed seed
  ⟨key, Random.block key 0, 0⟩

/-- The next word. -/
def next32 (s : KeyStream) : UInt32 × KeyStream :=
  let word := s.current[s.drawn % 16]
  let drawn := s.drawn + 1
  let current := if drawn % 16 = 0 then Random.block s.key (drawn / 16) else s.current
  (word, { s with current, drawn })

/-- The next two words, the low one first. -/
def next64 (s : KeyStream) : UInt64 × KeyStream :=
  let (low, s) := s.next32
  let (high, s) := s.next32
  (high.toUInt64 <<< 32 ||| low.toUInt64, s)

end KeyStream
end Realm
