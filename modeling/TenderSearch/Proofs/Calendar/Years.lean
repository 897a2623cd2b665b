import Mathlib.Algebra.BigOperators.Intervals
import Mathlib.Data.Int.ConditionallyCompleteOrder
import Mathlib.Data.Int.SuccPred
import Mathlib.Order.SuccPred.Archimedean
import TenderSearch.Calendar

/-!
# Counting the days of years

The days to the start of a year add up the lengths of the years in between,
forwards or backwards from 1970. So the starts of years ascend.
-/

namespace TenderSearch.Calendar

/-- The leap years of the proleptic Gregorian calendar. -/
def IsLeap (year : Int) : Prop :=
  4 ∣ year ∧ (¬ 100 ∣ year ∨ 400 ∣ year)

instance (year : Int) : Decidable (IsLeap year) :=
  inferInstanceAs (Decidable (_ ∧ _))

def yearLength (year : Int) : Int :=
  if IsLeap year then 366 else 365

/-- The days of a number of years, which start with a given one. -/
def daysOfYears (start : Int) (count : Nat) : Int :=
  ∑ i ∈ Finset.range count, yearLength (start + i)

/-- The days from the start of one year to the start of another. They count
negatively if that is the earlier one. -/
def daysBetween (start stop : Int) : Int :=
  daysOfYears start (stop - start).toNat - daysOfYears stop (start - stop).toNat

/-- The milliseconds from the start of 1970 to the start of a year. -/
def millisTo (year : Int) : Int :=
  86400000 * daysBetween 1970 year

/-! ## Adding up years -/

/-- Of the divisors of leap years, each passes once at its multiples. -/
theorem daysToYear_add_one (year : Int) :
    daysToYear (year + 1) = daysToYear year + yearLength year := by
  have hleap : yearLength year = 365 + (year / 4 - (year - 1) / 4) -
      (year / 100 - (year - 1) / 100) + (year / 400 - (year - 1) / 400) := by
    unfold yearLength
    split <;> unfold IsLeap at * <;> omega
  simp only [daysToYear, Int.add_sub_cancel]
  omega

theorem daysOfYears_eq (start : Int) (count : Nat) :
    daysOfYears start count = daysToYear (start + count) - daysToYear start := by
  induction count with
  | zero => simp [daysOfYears]
  | succ count ih =>
      have hlast : start + (count + 1 : Nat) = start + count + 1 := by omega
      rw [daysOfYears, Finset.sum_range_succ, ← daysOfYears, ih, hlast, daysToYear_add_one]
      omega

theorem daysBetween_eq (start stop : Int) :
    daysBetween start stop = daysToYear stop - daysToYear start := by
  rw [daysBetween, daysOfYears_eq, daysOfYears_eq]
  -- one of the two runs of years has no year
  rcases Int.le_total start stop with hle | hle
  · rw [Int.toNat_of_nonneg (Int.sub_nonneg.mpr hle), Int.toNat_of_nonpos (by omega)]
    simp
  · rw [Int.toNat_of_nonneg (Int.sub_nonneg.mpr hle), Int.toNat_of_nonpos (by omega)]
    simp

theorem yearStart_eq_millisTo (year : Int) : yearStart year = millisTo year := by
  have hepoch : daysToYear 1970 = 0 := by decide
  rw [yearStart, millisTo, daysBetween_eq, hepoch, Int.sub_zero, millisPerDay]

/-! ## Order -/

theorem yearStart_lt_add_one (year : Int) : yearStart year < yearStart (year + 1) := by
  have hlength : 0 < yearLength year := by
    unfold yearLength
    split <;> decide
  rw [yearStart, yearStart, daysToYear_add_one, millisPerDay]
  omega

theorem millisTo_strictMono : StrictMono millisTo := by
  apply strictMono_int_of_lt_succ
  intro year
  rw [← yearStart_eq_millisTo, ← yearStart_eq_millisTo]
  exact yearStart_lt_add_one year

/-- The starts of the years that can be counted fit 64 bits with a sign. -/
theorem millisTo_fits {year : Int} (hfirst : firstYear ≤ year) (hlast : year ≤ lastYear) :
    -2 ^ 63 ≤ millisTo year ∧ millisTo year < 2 ^ 63 := by
  have hnear := daysToYear_near year
  rw [← yearStart_eq_millisTo, yearStart]
  unfold firstYear at hfirst
  unfold lastYear at hlast
  unfold millisPerDay
  omega

end TenderSearch.Calendar
