/-! # Bounded plane coordinates

`Coord limit` is a pair of 32-bit components, valid when both are below `limit`. Steps stop at the
edges instead of wrapping around. -/

namespace Realm

structure Coord (limit : UInt32) where
  x : UInt32
  y : UInt32
  deriving DecidableEq, Repr, Inhabited

namespace Coord

variable {limit : UInt32}

def IsValid (c : Coord limit) : Prop := c.x < limit ∧ c.y < limit

instance (c : Coord limit) : Decidable c.IsValid := inferInstanceAs (Decidable (_ ∧ _))

/-! ## Steps -/

/-- `c + n`, or the last component below the limit if the sum reaches the limit. -/
def stepUp (limit c n : UInt32) : UInt32 :=
  if c.toNat + n.toNat < limit.toNat then c + n else limit - 1

/-- `c - n`, or 0 if there is less to take. -/
def stepDown (c n : UInt32) : UInt32 := if n ≤ c then c - n else 0

def incX (n : UInt32) (c : Coord limit) : Coord limit := { c with x := stepUp limit c.x n }

def incY (n : UInt32) (c : Coord limit) : Coord limit := { c with y := stepUp limit c.y n }

def decX (n : UInt32) (c : Coord limit) : Coord limit := { c with x := stepDown c.x n }

def decY (n : UInt32) (c : Coord limit) : Coord limit := { c with y := stepDown c.y n }

/-- Both components cut off at the last valid one. -/
def normalize (c : Coord limit) : Coord limit := ⟨min c.x (limit - 1), min c.y (limit - 1)⟩

/-- A step in either direction, or a normalization. -/
inductive Move where
  | incX (n : UInt32)
  | incY (n : UInt32)
  | decX (n : UInt32)
  | decY (n : UInt32)
  | normalize
  deriving DecidableEq, Repr

def move (c : Coord limit) : Move → Coord limit
  | .incX n => c.incX n
  | .incY n => c.incY n
  | .decX n => c.decX n
  | .decY n => c.decY n
  | .normalize => c.normalize

/-! ## Row-major numbers -/

/-- The row-major number of a coordinate, modulo `2 ^ 32`. -/
def id (c : Coord limit) : UInt32 := c.y * limit + c.x

def ofId (limit n : UInt32) : Coord limit := ⟨n % limit, n / limit⟩

instance : ToString (Coord limit) := ⟨fun c => s!"[{c.x}, {c.y}]"⟩

end Coord

/-- The coordinates with `low ≤ x ≤ high` componentwise, row by row. -/
def Coord.block {limit : UInt32} (low high : Coord limit) : List (Coord limit) :=
  (span low.y high.y).flatMap fun y => (span low.x high.x).map fun x => ⟨x, y⟩
where
  /-- The numbers from `a` to `b`, both included. -/
  span (a b : UInt32) : List UInt32 :=
    (List.range' a.toNat (b.toNat + 1 - a.toNat)).map UInt32.ofNat

end Realm
