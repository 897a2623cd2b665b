import TenderSearch.Clause.Compile
import TenderSearch.Proofs.Calendar.Years
import TenderSearch.Proofs.Report.Yields
import TenderSearch.Proofs.Text.Integers

/-!
# Ranges of years

A range of two years asks for the instants from the start of the first up to
the start of the second. So ranges that meet at a year leave nothing out and
share nothing. Values that do not start with two years raise that they are no
numbers.
-/

namespace TenderSearch

open Report (Yields)
open Text (IsPadded SpellsInteger)

namespace Calendar

/-- A value names a year as an integer or as the spelling of one between blanks. -/
inductive NamesYear : Json → Int → Prop where
  | number (year : Int) : NamesYear (Json.ofInt year) year
  | text {text : String} {numeral : List Char} {year : Int}
      (hnumeral : SpellsInteger numeral year) (htext : IsPadded numeral text.toList) :
      NamesYear (.str text) year

/-- A value names a year that instants can be counted to. -/
structure NamesStart (value : Json) (year : Int) : Prop where
  names : NamesYear value year
  first : firstYear ≤ year
  last : year ≤ lastYear

theorem year?_eq_some_iff {value : Json} {year : Int} :
    year? value = some year ↔ NamesYear value year ∧ -2 ^ 31 ≤ year ∧ year < 2 ^ 31 := by
  cases value with
  | str text =>
      have hnames : NamesYear (.str text) year ↔
          ∃ numeral, SpellsInteger numeral year ∧ IsPadded numeral text.toList := by
        constructor
        · intro hnames
          cases hnames with
          | text hnumeral htext => exact ⟨_, hnumeral, htext⟩
        · rintro ⟨numeral, hnumeral, htext⟩
          exact .text hnumeral htext
      rw [hnames]
      exact Text.int32?_trim_eq_some_iff
  | num number =>
      cases number with
      | int n =>
          have hnames : NamesYear (.num (.int n)) year ↔ n = year := by
            constructor
            · intro hnames
              cases hnames
              rfl
            · rintro rfl
              exact .number n
          change (if -2 ^ 31 ≤ n ∧ n < 2 ^ 31 then some n else none) = some year ↔ _
          rw [hnames, Option.ite_none_right_eq_some, Option.some.injEq, and_comm]
          exact and_congr_right fun hn => by rw [hn]
      | float x => exact ⟨nofun, nofun⟩
  | _ => exact ⟨nofun, nofun⟩

theorem yearStart?_eq_some_iff {value : Json} {start : Int} :
    yearStart? value = some start ↔ ∃ year, NamesStart value year ∧ millisTo year = start := by
  simp only [yearStart?, Option.map_eq_some_iff, Option.filter_eq_some_iff, year?_eq_some_iff,
    decide_eq_true_eq, yearStart_eq_millisTo]
  constructor
  · rintro ⟨year, ⟨⟨hnames, -⟩, hfirst, hlast⟩, hstart⟩
    exact ⟨year, ⟨hnames, hfirst, hlast⟩, hstart⟩
  · rintro ⟨year, ⟨hnames, hfirst, hlast⟩, hstart⟩
    have hrange : -2 ^ 31 ≤ year ∧ year < 2 ^ 31 := by
      unfold firstYear at hfirst
      unfold lastYear at hlast
      omega
    exact ⟨year, ⟨⟨hnames, hrange⟩, hfirst, hlast⟩, hstart⟩

end Calendar

namespace Clause

open Calendar (NamesStart millisTo millisTo_strictMono millisTo_fits yearStart_eq_millisTo
  yearStart?_eq_some_iff)

theorem yearBounds?_eq_some_iff {values : List Json} {low high : Int} :
    yearBounds? values = some (low, high) ↔
      ∃ start stop others a b, values = start :: stop :: others ∧ NamesStart start a ∧
        NamesStart stop b ∧ millisTo a = low ∧ millisTo b = high := by
  constructor
  · intro hbounds
    unfold yearBounds? at hbounds
    split at hbounds
    next start stop others =>
      simp only [Option.bind_eq_bind, Option.bind_eq_some_iff, yearStart?_eq_some_iff] at hbounds
      obtain ⟨_, ⟨a, ha, rfl⟩, _, ⟨b, hb, rfl⟩, hpair⟩ := hbounds
      obtain ⟨hlow, hhigh⟩ := Prod.mk.inj (Option.some.inj hpair)
      exact ⟨start, stop, others, a, b, rfl, ha, hb, hlow, hhigh⟩
    next => cases hbounds
  · rintro ⟨start, stop, others, a, b, rfl, ha, hb, rfl, rfl⟩
    have hstart := yearStart?_eq_some_iff.mpr ⟨a, ha, rfl⟩
    have hstop := yearStart?_eq_some_iff.mpr ⟨b, hb, rfl⟩
    simp [yearBounds?, hstart, hstop]

section Range

variable {clause : Clause} (hkind : clause.kind = .range)
include hkind

theorem yields_years {low high : Int} (hbounds : yearBounds? clause.values = some (low, high)) :
    Yields clause.compileAlone
      (some (Fragment.leaf "range" clause.field
        (.obj [("gte", Json.ofInt low), ("lt", Json.ofInt high)]))) [] := by
  have hcompile : clause.compileAlone = pure (some (Fragment.leaf "range" clause.field
      (.obj [("gte", Json.ofInt low), ("lt", Json.ofInt high)]))) := by
    simp [compileAlone, hkind, compileYears, hbounds]
  rw [hcompile]
  exact .pure _

theorem yields_no_years (hbounds : yearBounds? clause.values = none) :
    Yields clause.compileAlone none
      [.invalidNumber clause.field (Json.render (.arr clause.values))] := by
  have hcompile : clause.compileAlone = (do
      Report.raise (.invalidNumber clause.field (Json.render (.arr clause.values)))
      return none) := by
    simp [compileAlone, hkind, compileYears, hbounds]
  rw [hcompile]
  exact (Yields.pure none).raise_bind

end Range

/-- A range of years is the interval between their starts in milliseconds, which
fit 64 bits with a sign. Starts ascend with the years, so ranges that meet tile
the one that they make up, and a range backwards is empty. Where two years are
missing nothing is compiled and just that is raised. -/
theorem year_ranges_tile {clause : Clause} (hkind : clause.kind = .range) :
    (∀ start stop others a b, NamesStart start a → NamesStart stop b →
      Yields { clause with values := start :: stop :: others }.compileAlone
          (some (Fragment.leaf "range" clause.field
            (.obj [("gte", Json.ofInt (millisTo a)), ("lt", Json.ofInt (millisTo b))]))) [] ∧
        (-2 ^ 63 ≤ millisTo a ∧ millisTo a < 2 ^ 63) ∧
        (-2 ^ 63 ≤ millisTo b ∧ millisTo b < 2 ^ 63)) ∧
    (∀ values,
      (¬ ∃ start stop others a b, values = start :: stop :: others ∧ NamesStart start a ∧
        NamesStart stop b) →
      Yields { clause with values := values }.compileAlone none
        [.invalidNumber clause.field (Json.render (.arr values))]) ∧
    StrictMono millisTo ∧
    (∀ a b c, a ≤ b → b ≤ c → ∀ instant, instant ∈ Set.Ico (millisTo a) (millisTo c) ↔
      Xor (instant ∈ Set.Ico (millisTo a) (millisTo b))
        (instant ∈ Set.Ico (millisTo b) (millisTo c))) ∧
    (∀ a b, b ≤ a → Set.Ico (millisTo a) (millisTo b) = ∅) := by
  refine ⟨?_, ?_, millisTo_strictMono, ?_, ?_⟩
  · intro start stop others a b ha hb
    refine ⟨?_, millisTo_fits ha.first ha.last, millisTo_fits hb.first hb.last⟩
    have hbounds : yearBounds? (start :: stop :: others) = some (millisTo a, millisTo b) :=
      yearBounds?_eq_some_iff.mpr ⟨start, stop, others, a, b, rfl, ha, hb, rfl, rfl⟩
    exact @yields_years { clause with values := start :: stop :: others } hkind _ _ hbounds
  · intro values hnone
    have hbounds : yearBounds? values = none := by
      by_contra hsome
      obtain ⟨⟨low, high⟩, hbounds⟩ := Option.ne_none_iff_exists'.mp hsome
      obtain ⟨start, stop, others, a, b, hvalues, ha, hb, -⟩ := yearBounds?_eq_some_iff.mp hbounds
      exact hnone ⟨start, stop, others, a, b, hvalues, ha, hb⟩
    exact @yields_no_years { clause with values := values } hkind hbounds
  · intro a b c hab hbc instant
    have hlower := millisTo_strictMono.monotone hab
    have hupper := millisTo_strictMono.monotone hbc
    simp only [Set.mem_Ico, Xor]
    omega
  · intro a b hle
    exact Set.Ico_eq_empty_of_le (millisTo_strictMono.monotone hle)

/-- Two years up to the start of 1970, of which the first is a leap year and the
second is a text with a blank in front. -/
theorem year_ranges_tile_leap :
    Yields (plain .range "date" [Json.ofInt 1968, .str " 1970"]).compileAlone
      (some (Fragment.leaf "range" "date"
        (.obj [("gte", Json.ofInt (-63158400000)), ("lt", Json.ofInt 0)]))) [] := by
  have hstart : NamesStart (Json.ofInt 1968) 1968 := ⟨.number 1968, by decide, by decide⟩
  have hstop : NamesStart (.str " 1970") 1970 := by
    refine ⟨?_, by decide, by decide⟩
    have hdigits : Text.IsDigits "1970".toList := by decide
    exact .text (.mk .none hdigits (by decide)) ⟨[' '], [], rfl, by decide, by decide⟩
  have hlow : millisTo 1968 = -63158400000 := by
    rw [← yearStart_eq_millisTo]
    decide
  have hhigh : millisTo 1970 = 0 := by
    rw [← yearStart_eq_millisTo]
    decide
  obtain ⟨hyears, -⟩ := @year_ranges_tile (plain .range "date" []) rfl
  rw [← hlow, ← hhigh]
  exact (hyears (Json.ofInt 1968) (.str " 1970") [] 1968 1970 hstart hstop).1

end Clause

end TenderSearch
