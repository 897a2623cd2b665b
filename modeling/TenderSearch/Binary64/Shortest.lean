import TenderSearch.Binary64.Basic

/-!
# The shortest decimal of a floating-point number

Of the decimals that round to a given number, the one with the fewest digits,
and of those the nearest. For each digit count the two neighbours of the
number on the decimal grid of that precision are tested against the interval
of reals that round to it; the first grid with a hit wins.
-/

namespace TenderSearch

/-- The decimal number `digits * 10 ^ exponent`. -/
structure Decimal where
  digits : Nat
  exponent : Int
deriving DecidableEq

namespace Decimal

/-- The same number with the zeros at the end of its digits moved into the
exponent, at most `fuel` of them. -/
def trimZeros : Nat → Decimal → Decimal
  | 0, d => d
  | fuel + 1, d =>
      if d.digits ≠ 0 ∧ d.digits % 10 = 0 then
        trimZeros fuel ⟨d.digits / 10, d.exponent + 1⟩
      else d

end Decimal

namespace Binary64

/-- Decimal grids are counted in steps of `10 ^ -gridDepth`, finer than any
grid that is needed. -/
def gridDepth : Nat := 340

/-- Whether a multiple of `10 ^ -gridDepth` rounds to a number. The ends of
the interval belong to it exactly when the number's significand is even. -/
def roundsTo (x : Binary64) (multiple : Nat) : Bool :=
  let m := x.magnitude.val
  let below := unitsAt (m - 1) + unitsAt m
  let above := unitsAt m + unitsAt (m + 1)
  let point := 2 * multiple * one
  let scale := Nat.pow 10 gridDepth
  if m % 2 = 0 then below * scale ≤ point && point ≤ above * scale
  else below * scale < point && point < above * scale

/-- The best decimal with `count` digits among the two next to a number whose
first digit stands for `10 ^ (lead - gridDepth)`. -/
def onGrid? (x : Binary64) (lead count : Nat) : Option Decimal :=
  let step := Nat.pow 10 (lead + 1 - count)
  let num := x.units * Nat.pow 10 gridDepth
  let den := one * step
  let low := num / den
  let twice := 2 * (num % den)
  let lowFirst := twice < den || (twice == den && low % 2 == 0)
  let candidates := if lowFirst then [low, low + 1] else [low + 1, low]
  let exponent : Int := ((lead + 1 - count : Nat) : Int) - (gridDepth : Int)
  (candidates.find? fun c => x.roundsTo (c * step)).map fun c => ⟨c, exponent⟩

/-- The shortest decimal that rounds to the absolute value of a number. -/
def shortest (x : Binary64) : Decimal :=
  if x.isZero then ⟨0, 0⟩
  else
    let lead := (Nat.toDigits 10 (x.units * Nat.pow 10 gridDepth / one)).length - 1
    match (List.range 17).findSome? fun n => x.onGrid? lead (n + 1) with
    | some d => d.trimZeros 17
    | none => ⟨0, 0⟩

end Binary64

end TenderSearch
