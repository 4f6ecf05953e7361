import Realm.Binary.Basic

/-! # Decimal text of floating-point numbers

Two texts, both positional: the fewest digits that read back as the same number, and a fixed number
of decimal places. -/

namespace Realm

/-- The digits of `n` with a point before the last `places` of them. -/
def pointBefore (places n : Nat) : String :=
  if places = 0 then toString n
  else
    let digits := toString (n % tenPow places)
    toString (n / tenPow places) ++ "." ++
      String.ofList (List.replicate (places - digits.length) '0') ++ digits

namespace Format

/-! ## The shortest digits -/

/-- Whether `c * 10 ^ -places` lies between the midpoints from rank `k` to its neighbours. The
midpoints themselves count when `k` is even, since a tie is read as the even rank. -/
def readsBack (f : Format) (k : Nat) (places : Int) (c : Nat) : Bool :=
  let here := f.units k
  let low := (f.units (k - 1) + here) * tenPow places.toNat
  let high := (here + f.units (k + 1)) * tenPow places.toNat
  let candidate := c * tenPow (-places).toNat * twoPow (f.scale + 1)
  if k % 2 = 0 then low ≤ candidate && candidate ≤ high else low < candidate && candidate < high

/-- Of the two multiples of `10 ^ -places` around rank `k`, the one that reads back as `k`; of two,
the nearer, and the upper one if they are equally near. -/
def nearbyDecimal? (f : Format) (k : Nat) (places : Int) : Option Nat :=
  let num := f.units k * tenPow places.toNat
  let den := tenPow (-places).toNat * twoPow f.scale
  let below := num / den
  let above := if num % den = 0 then below else below + 1
  match f.readsBack k places below, f.readsBack k places above with
  | true, true => some (if 2 * (num % den) < den then below else above)
  | true, false => some below
  | false, true => some above
  | false, false => none

/-- The decimal with the fewest digits that reads back as the positive rank `k`, as an integer and a
number of decimal places, negative for trailing zeros. -/
def shortest (f : Format) (k : Nat) : Nat × Int :=
  let wholeDigits := (toString (f.units k / twoPow f.scale)).length
  let places := (List.range (wholeDigits + f.scale + 1)).map fun (i : Nat) => (i : Int) - wholeDigits
  (places.findSome? fun p => (f.nearbyDecimal? k p).map fun c => (c, p)).getD (0, 0)

end Format

namespace Binary

variable {f : Format}

/-- The text of a number whose magnitude, if finite, is written by `magnitude`. -/
def textBy (magnitude : Nat → String) : Binary f → String
  | .nan => "NaN"
  | .infinite negative => if negative then "-inf" else "inf"
  | .finite negative rank => (if negative then "-" else "") ++ magnitude rank

/-- The fewest digits that read back as the same number. -/
def shortestText : Binary f → String :=
  textBy fun k =>
    if k = 0 then "0"
    else
      let (c, places) := f.shortest k
      pointBefore places.toNat (c * tenPow (-places).toNat)

/-- The exact value rounded to `places` decimal places. -/
def fixedText (places : Nat) : Binary f → String :=
  textBy fun k => pointBefore places (divRoundHalfEven (f.units k * tenPow places) (twoPow f.scale))

end Binary
end Realm
