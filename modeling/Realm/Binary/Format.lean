/-! # Binary floating-point formats

A format has finitely many nonnegative finite values. Listed from zero upwards, each has a *rank*;
consecutive ranks are consecutive values, and a rank is also the bit pattern of its value.
Rounding picks the rank nearest to an exact quotient, ties to the even rank. -/

namespace Realm

/-- The quotient `num / den` rounded to the nearest integer, a half to the even neighbour. -/
def divRoundHalfEven (num den : Nat) : Nat :=
  let floor := num / den
  let rest := num % den
  if 2 * rest < den then floor
  else if den < 2 * rest then floor + 1
  else if floor % 2 = 0 then floor else floor + 1

/-! ## Powers of the two bases -/

def twoPow (n : Nat) : Nat := Nat.pow 2 n

def tenPow (n : Nat) : Nat := Nat.pow 10 n

/-! ## Formats -/

/-- `precision` counts the significand's bits, the leading one included. -/
structure Format where
  precision : Nat
  exponentBits : Nat
  deriving DecidableEq, Repr

namespace Format

def single : Format := ⟨24, 8⟩

def double : Format := ⟨53, 11⟩

/-- How many ranks share one exponent. -/
def binade (f : Format) : Nat := twoPow (f.precision - 1)

/-- The least positive value is `2 ^ -scale`; every finite value is a multiple of it. -/
def scale (f : Format) : Nat := twoPow (f.exponentBits - 1) + f.precision - 3

/-- The number of nonnegative finite values; as a bit pattern, infinity. -/
def magnitudes (f : Format) : Nat := (twoPow f.exponentBits - 1) * f.binade

/-- The value of rank `k`, counted in least positive values. -/
def units (f : Format) (k : Nat) : Nat :=
  if k < f.binade then k else (f.binade + k % f.binade) * twoPow (k / f.binade - 1)

/-- The rank nearest to `num / den` least positive values. Ranks past the last finite one stand for
overflow. -/
def nearestRank (f : Format) (num den : Nat) : Nat :=
  let shift := Nat.log2 (num / den) - (f.precision - 1)
  shift * f.binade + divRoundHalfEven num (den * twoPow shift)

end Format
end Realm
