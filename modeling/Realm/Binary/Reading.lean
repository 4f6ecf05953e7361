import Realm.Binary.Basic

/-! # Reading floating-point numbers from decimal text -/

namespace Realm.Binary

variable {f : Format}

/-- The number nearest to `±mantissa * 10 ^ exponent`. Exponents too far out to matter are not
computed with. -/
def ofDecimal (f : Format) (negative : Bool) (mantissa : Nat) (exponent : Int) : Binary f :=
  let size : Int := (toString mantissa).length + exponent
  let reach : Int := f.scale + f.precision
  if mantissa = 0 || size < -reach then round f negative 0
  else if reach < size then .infinite negative
  else
    let magnitude : Rat :=
      mkRat (mantissa * tenPow exponent.toNat : Nat) (tenPow (-exponent).toNat)
    round f negative (if negative then -magnitude else magnitude)

/-- The digits a text starts with, and what is left after them. -/
def digits (cs : List Char) : List Char × List Char :=
  (cs.takeWhile Char.isDigit, cs.dropWhile Char.isDigit)

def digitsValue (cs : List Char) : Nat :=
  cs.foldl (fun n c => 10 * n + (c.toNat - '0'.toNat)) 0

/-- A sign, if there is one. -/
def sign : List Char → Bool × List Char
  | '-' :: rest => (true, rest)
  | '+' :: rest => (false, rest)
  | cs => (false, cs)

/-- The exponent that a text consists of; none counts as 0. -/
def exponent? : List Char → Option Int
  | [] => some 0
  | e :: rest =>
    if e = 'e' || e = 'E' then
      let (negative, rest) := sign rest
      let (power, rest) := digits rest
      if power.isEmpty || !rest.isEmpty then none
      else some (if negative then -(digitsValue power : Int) else digitsValue power)
    else none

/-- Reads a sign, digits with a point among or around them, and an exponent. -/
def ofText? (f : Format) (text : String) : Option (Binary f) := do
  let (negative, rest) := sign text.toList
  let (whole, rest) := digits rest
  let (fraction, rest) := if rest.head? = some '.' then digits (rest.drop 1) else ([], rest)
  if whole.isEmpty && fraction.isEmpty then none
  let exponent ← exponent? rest
  return ofDecimal f negative (digitsValue (whole ++ fraction)) (exponent - fraction.length)

end Realm.Binary
