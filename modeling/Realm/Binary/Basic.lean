import Realm.Binary.Format

/-! # Floating-point numbers

Arithmetic is exact rational arithmetic followed by one rounding to nearest, ties to even. -/

namespace Realm

/-- A number of format `f`. Both zeros are finite, told apart by their sign. -/
inductive Binary (f : Format) where
  | nan
  | infinite (negative : Bool)
  | finite (negative : Bool) (rank : Fin f.magnitudes)
  deriving DecidableEq, Repr

abbrev Single := Binary .single
abbrev Double := Binary .double

namespace Binary

variable {f g : Format}

/-! ## Values and rounding -/

/-- The value of a finite number. -/
def signedValue (negative : Bool) (rank : Fin f.magnitudes) : Rat :=
  let units : Int := f.units rank
  mkRat (if negative then -units else units) (twoPow f.scale)

/-- The exact value, where there is one. -/
def value? : Binary f → Option Rat
  | .nan | .infinite _ => none
  | .finite negative rank => some (signedValue negative rank)

/-- The number nearest to `q`. An exact zero takes the sign `zeroSign`, every other result the sign
of `q`. -/
def round (f : Format) (zeroSign : Bool) (q : Rat) : Binary f :=
  let negative := if q.num = 0 then zeroSign else decide (q.num < 0)
  let rank := f.nearestRank (q.num.natAbs * twoPow f.scale) q.den
  if h : rank < f.magnitudes then .finite negative ⟨rank, h⟩ else .infinite negative

def ofRat (f : Format) (q : Rat) : Binary f := round f false q

def ofInt (f : Format) (n : Int) : Binary f := round f false n

instance (n : Nat) : OfNat (Binary f) n := ⟨ofInt f n⟩

/-- The same value in another format, rounded where it does not fit. -/
def convert (g : Format) : Binary f → Binary g
  | .nan => .nan
  | .infinite negative => .infinite negative
  | .finite negative rank => round g negative (signedValue negative rank)

def widen (x : Single) : Double := x.convert .double

def narrow (x : Double) : Single := x.convert .single

/-! ## Arithmetic -/

def neg : Binary f → Binary f
  | .nan => .nan
  | .infinite negative => .infinite !negative
  | .finite negative rank => .finite (!negative) rank

/-- An exact zero sum is negative only if both terms are. -/
def add : Binary f → Binary f → Binary f
  | .nan, _ | _, .nan => .nan
  | .infinite a, .infinite b => if a = b then .infinite a else .nan
  | .infinite a, .finite .. => .infinite a
  | .finite .., .infinite b => .infinite b
  | .finite a m, .finite b n => round f (a && b) (signedValue a m + signedValue b n)

def sub (x y : Binary f) : Binary f := x.add y.neg

def mul : Binary f → Binary f → Binary f
  | .nan, _ | _, .nan => .nan
  | .infinite a, .infinite b => .infinite (a ^^ b)
  | .infinite a, .finite b n => if n.val = 0 then .nan else .infinite (a ^^ b)
  | .finite a m, .infinite b => if m.val = 0 then .nan else .infinite (a ^^ b)
  | .finite a m, .finite b n => round f (a ^^ b) (signedValue a m * signedValue b n)

def div : Binary f → Binary f → Binary f
  | .nan, _ | _, .nan => .nan
  | .infinite _, .infinite _ => .nan
  | .infinite a, .finite b _ => .infinite (a ^^ b)
  | .finite a _, .infinite b => round f (a ^^ b) 0
  | .finite a m, .finite b n =>
    if n.val = 0 then if m.val = 0 then .nan else .infinite (a ^^ b)
    else round f (a ^^ b) (signedValue a m / signedValue b n)

instance : Neg (Binary f) := ⟨neg⟩
instance : Add (Binary f) := ⟨add⟩
instance : Sub (Binary f) := ⟨sub⟩
instance : Mul (Binary f) := ⟨mul⟩
instance : Div (Binary f) := ⟨div⟩

/-! ## Order -/

/-- The place of a number on the line of all numbers; both zeros share the place 0. -/
def place? : Binary f → Option Int
  | .nan => none
  | .infinite negative => some (if negative then -f.magnitudes else f.magnitudes)
  | .finite negative rank => some (if negative then -rank else rank)

/-- Whether `r` holds between the places of two numbers; never if one of them is not a number. -/
def compareBy (r : Int → Int → Bool) (x y : Binary f) : Bool :=
  match x.place?, y.place? with
  | some a, some b => r a b
  | _, _ => false

def lt (x y : Binary f) : Bool := compareBy (· < ·) x y

def le (x y : Binary f) : Bool := compareBy (· ≤ ·) x y

/-- Equality of values: the zeros are equal, and what is not a number differs from itself. -/
def same (x y : Binary f) : Bool := compareBy (· = ·) x y

instance : LT (Binary f) := ⟨fun x y => x.lt y = true⟩
instance : LE (Binary f) := ⟨fun x y => x.le y = true⟩
instance (x y : Binary f) : Decidable (x < y) := inferInstanceAs (Decidable (x.lt y = true))
instance (x y : Binary f) : Decidable (x ≤ y) := inferInstanceAs (Decidable (x.le y = true))

def isFinite : Binary f → Bool
  | .finite .. => true
  | _ => false

def abs : Binary f → Binary f
  | .nan => .nan
  | .infinite _ => .infinite false
  | .finite _ rank => .finite false rank

/-! ## Integers and bit patterns -/

/-- The integer part, cut off at the bounds of a signed 32-bit word; 0 for what is not a number. -/
def toInt32 : Binary f → Int
  | .nan => 0
  | .infinite negative => if negative then low else high
  | .finite negative rank =>
    let q : Rat := signedValue negative rank
    max low (min high (q.num.tdiv q.den))
where
  low : Int := -0x80000000
  high : Int := 0x7fffffff

def toBits? : Binary f → Option Nat
  | .nan => none
  | .infinite negative => some (signBit negative + f.magnitudes)
  | .finite negative rank => some (signBit negative + rank)
where
  signBit (negative : Bool) : Nat :=
    if negative then twoPow (f.precision - 1 + f.exponentBits) else 0

end Binary
end Realm
