/-!
# Finite 64-bit floating-point numbers

A number is a sign and a magnitude, where the magnitudes count the
representable sizes from zero upwards. Every size is a whole number of units
of 2^-1074, so all arithmetic here is exact arithmetic on natural numbers
followed by one rounding to the nearest magnitude, halves to even.
-/

namespace TenderSearch

/-- A finite number of the 64-bit binary format. -/
structure Binary64 where
  negative : Bool
  magnitude : Fin (2047 * Nat.pow 2 52)
deriving DecidableEq

namespace Binary64

/-- One, counted in units of 2^-1074. -/
def one : Nat := Nat.pow 2 1074

/-- The size of the n-th magnitude, counted in units of 2^-1074. -/
def unitsAt (n : Nat) : Nat :=
  if n < Nat.pow 2 52 then n
  else (Nat.pow 2 52 + n % Nat.pow 2 52) * Nat.pow 2 (n / Nat.pow 2 52 - 1)

/-- The absolute value, counted in units of 2^-1074. -/
def units (x : Binary64) : Nat :=
  unitsAt x.magnitude

def isZero (x : Binary64) : Bool :=
  x.magnitude.val == 0

/-- The number with its sign flipped where asked. -/
def flipIf (flip : Bool) (x : Binary64) : Binary64 :=
  { x with negative := x.negative != flip }

def zero : Binary64 :=
  ⟨false, 0⟩

/-- A quotient rounded to the nearest whole number, halves to even. -/
def roundQuotient (num den : Nat) : Nat :=
  let quotient := num / den
  let twice := 2 * (num % den)
  if twice < den then quotient
  else if den < twice then quotient + 1
  else if quotient % 2 = 0 then quotient
  else quotient + 1

/-- The number nearest to a quotient, halves to even; none when the quotient
lies beyond the finite range. -/
def nearest (negative : Bool) (num den : Nat) : Option Binary64 :=
  let scaled := num * one
  let excess := (scaled / den).log2 - 52
  let magnitude := excess * Nat.pow 2 52 + roundQuotient scaled (den * Nat.pow 2 excess)
  if h : magnitude < 2047 * Nat.pow 2 52 then some ⟨negative, ⟨magnitude, h⟩⟩ else none

def ofInt? (n : Int) : Option Binary64 :=
  nearest (n < 0) n.natAbs 1

/-- The integer that a number equals, if it is whole. -/
def toInt? (x : Binary64) : Option Int :=
  if x.units % one = 0 then
    let size : Int := ((x.units / one : Nat) : Int)
    some (if x.negative then -size else size)
  else none

def mul? (x y : Binary64) : Option Binary64 :=
  nearest (x.negative != y.negative) (x.units * y.units) (one * one)

/-- The rounded quotient of a number by a nonzero one. -/
def div? (x y : Binary64) : Option Binary64 :=
  nearest (x.negative != y.negative) x.units y.units

/-- The number nearest to `digits * 10 ^ exponent`. Exponents so large or so
small that the result is settled without looking at the digits are not
expanded. -/
def ofDecimal (negative : Bool) (digits : Nat) (exponent : Int) : Option Binary64 :=
  let length : Int := ((Nat.toDigits 10 digits).length : Int)
  if digits = 0 then some ⟨negative, 0⟩
  else if length + exponent > 330 then none
  else if length + exponent < -330 then some ⟨negative, 0⟩
  else if 0 ≤ exponent then nearest negative (digits * Nat.pow 10 exponent.toNat) 1
  else nearest negative digits (Nat.pow 10 (-exponent).toNat)

end Binary64

end TenderSearch
