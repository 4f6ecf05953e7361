import Realm.Binary.Basic
import Realm.Random.KeyStream

/-! # Drawing numbers -/

namespace Realm.KeyStream

/-- A number from `low` up to `high`: a fraction of 23 random bits, scaled and shifted in single
precision. -/
def nextSingle (low high : Single) (s : KeyStream) : Single × KeyStream :=
  let (word, s) := s.next32
  let fraction : Single := .ofRat .single (mkRat (word >>> 9).toNat (twoPow 23))
  (fraction * (high - low) + low, s)

/-- The threshold below which a random 64-bit word stands for an event of probability `p`. -/
def threshold (p : Double) : Nat :=
  match p.value? with
  | some q => (q * twoPow 64).floor.toNat
  | none => 0

/-- Whether an event of probability `p` happens. A certain event needs no draw. -/
def nextBool (p : Double) (s : KeyStream) : Bool × KeyStream :=
  if p = 1 then (true, s)
  else
    let (word, s) := s.next64
    (decide (word.toNat < threshold p), s)

/-- A number below `n`: the high half of a random word times `n`. Words whose low half lies past
the largest multiple of `n` by a power of two are drawn again, at most `fuel` times. -/
def nextBelowFrom (n : Nat) : Nat → KeyStream → Nat × KeyStream
  | 0, s => (0, s)
  | fuel + 1, s =>
    let (word, s) := s.next64
    let product := word.toNat * n
    let zone := n * twoPow (63 - Nat.log2 n) - 1
    if product % twoPow 64 ≤ zone then (product / twoPow 64, s) else nextBelowFrom n fuel s

/-- At least half of all words are kept, so a hundred draws are as good as enough. -/
def nextBelow (n : Nat) (s : KeyStream) : Nat × KeyStream := nextBelowFrom n 128 s

end Realm.KeyStream
