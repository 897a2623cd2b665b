import TenderSearch.Json.Basic
import TenderSearch.Text.Blank
import TenderSearch.Text.Digits

/-!
# Starts of calendar years

Instants are milliseconds from the start of 1970 in the proleptic Gregorian
calendar, without leap seconds.
-/

namespace TenderSearch.Calendar

def millisPerDay : Int := 86400000

/-- Days from the start of 1970 to the start of a year. -/
def daysToYear (year : Int) : Int :=
  let before := year - 1
  365 * (year - 1970) + (before / 4 - before / 100 + before / 400) -
    (1969 / 4 - 1969 / 100 + 1969 / 400)

def yearStart (year : Int) : Int :=
  millisPerDay * daysToYear year

/-- Years are as long as they are on average, but for two days. -/
theorem daysToYear_near (year : Int) :
    146097 * (year - 1970) - 800 ≤ 400 * daysToYear year ∧
      400 * daysToYear year ≤ 146097 * (year - 1970) + 800 := by
  simp only [daysToYear]
  have hcenturies : (year - 1) / 100 = (year - 1) / 4 / 25 := by omega
  have hcycles : (year - 1) / 400 = (year - 1) / 4 / 25 / 4 := by omega
  rw [hcenturies, hcycles]
  omega

/-- The year of a day that is counted from the start of 1970. -/
def yearOfDay (day : Int) : Int :=
  let guess := 1970 + day * 400 / 146097
  if day < daysToYear guess then guess - 1
  else if daysToYear (guess + 1) ≤ day then guess + 1
  else guess

/-- A day lies between the start of its year and the start of the next. -/
theorem yearOfDay_bounds (day : Int) :
    daysToYear (yearOfDay day) ≤ day ∧ day < daysToYear (yearOfDay day + 1) := by
  have hbelow := daysToYear_near (1970 + day * 400 / 146097 - 1)
  have habove := daysToYear_near (1970 + day * 400 / 146097 + 1 + 1)
  simp only [yearOfDay]
  split
  · rw [Int.sub_add_cancel]
    omega
  · split <;> omega

/-- The first year whose days can be counted. -/
def firstYear : Int := -262143

def lastYear : Int := 262142

/-- The year that a value names: a 32-bit integer, or a text that spells one
between blanks. -/
def year? : Json → Option Int
  | .str s => Text.int32? (Text.trim s.toList)
  | value => value.intOfBits? 32

def yearStart? (value : Json) : Option Int :=
  ((year? value).filter fun year => firstYear ≤ year ∧ year ≤ lastYear).map yearStart

end TenderSearch.Calendar
