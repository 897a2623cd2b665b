import TenderSearch.Proofs.Settings.Recoding
import TenderSearch.Proofs.Toml.WrittenLines
import TenderSearch.Settings.File

/-!
# Saving settings and loading them

The text of settings defines a table with all of their fields, from which the same
settings are read. No default takes the place of a field, because only the last year
may be left out, and it is left out only where it is not set.
-/

namespace TenderSearch.Settings

open Json (FitsBits)
open Toml (Entries Line Spells Written)

/-! ## The text as lines -/

/-- The line of the last year, which is left out where it is not set. -/
def Reading.lastYearLines (reading : Reading) : List Line :=
  match reading.lastYear with
  | some year => [.assignment ["max_year"] (.integer year)]
  | none => []

/-- What the lines of saved settings spell. -/
def lines (settings : Settings) : List Line :=
  [.header ["query"],
    .assignment ["nested_scopes"] (.list (settings.search.scopes.map .text)),
    .assignment ["default_sort_field"] (.text settings.search.defaultSortField),
    .assignment ["default_bucket_size"] (.integer settings.search.defaultSize),
    .assignment ["country_field"] (.text settings.search.countryField),
    .header ["errors"],
    .assignment ["mode"] (.text settings.mode.name),
    .header ["registry"],
    .assignment ["min_year"] (.integer settings.reading.firstYear)] ++
  settings.reading.lastYearLines ++
  [.assignment ["language"] (.text settings.reading.language),
    .header ["logging"],
    .assignment ["level"] (.text settings.logLevel)]

theorem spells_year {year : Int} (hyear : FitsBits 32 year) :
    Spells (Toml.writeInteger year) (.integer year) := by
  obtain ⟨hlow, hhigh⟩ := hyear
  have hbits : Nat.pow 2 (32 - 1) ≤ Nat.pow 2 63 := by decide
  apply Toml.spells_integer
  · omega
  · omega

theorem spells_size {size : Nat} (hsize : size < Nat.pow 2 32) :
    Spells (Toml.writeInteger size) (.integer size) := by
  have hbits : Nat.pow 2 32 ≤ Nat.pow 2 63 := by decide
  apply Toml.spells_integer
  · omega
  · omega

theorem written_lastYear {reading : Reading} (hyears : reading.YearsFit) {text : List Char}
    {lines : List Line} (hlines : Written text lines) :
    Written ((match reading.lastYear with
      | some year => Toml.writeAssignment "max_year" (Toml.writeInteger year)
      | none => []) ++ text) (reading.lastYearLines ++ lines) := by
  unfold Reading.lastYearLines
  cases hlast : reading.lastYear with
  | none => exact hlines
  | some year =>
      exact .assignment (by decide) (spells_year (hyears.last year hlast)) hlines

theorem written_toText {settings : Settings} (hfits : settings.Fits) :
    Written settings.toText.toList settings.lines := by
  have hlogging : Written (Toml.writeHeader "logging" ++
      Toml.writeAssignment "level" (Toml.writeText settings.logLevel))
      [.header ["logging"], .assignment ["level"] (.text settings.logLevel)] := by
    rw [← List.append_nil (Toml.writeAssignment _ _)]
    exact .header (by decide)
      (.assignment (by decide) (Toml.spells_text _) .nil)
  unfold toText lines
  rw [String.toList_ofList]
  simp only [List.append_assoc, List.cons_append, List.nil_append]
  refine .header (by decide) ?_
  refine .assignment (by decide) (Toml.spells_texts _) ?_
  refine .assignment (by decide) (Toml.spells_text _) ?_
  refine .assignment (by decide) (spells_size hfits.size) ?_
  refine .assignment (by decide) (Toml.spells_text _) ?_
  refine .blank (.header (by decide) ?_)
  refine .assignment (by decide) (Toml.spells_text _) ?_
  refine .blank (.header (by decide) ?_)
  refine .assignment (by decide) (spells_year hfits.years.first) ?_
  refine written_lastYear hfits.years ?_
  refine .assignment (by decide) (Toml.spells_text _) ?_
  exact .blank hlogging

/-! ## The lines as a table -/

/-- The table that the text of settings defines. -/
def entries (settings : Settings) : Entries :=
  [("query", .table .header [
      ("nested_scopes", .list (settings.search.scopes.map .text)),
      ("default_sort_field", .text settings.search.defaultSortField),
      ("default_bucket_size", .integer settings.search.defaultSize),
      ("country_field", .text settings.search.countryField)]),
    ("errors", .table .header [("mode", .text settings.mode.name)]),
    ("registry", .table .header (
      ("min_year", .integer settings.reading.firstYear) ::
      match settings.reading.lastYear with
      | some year =>
          [("max_year", .integer year), ("language", .text settings.reading.language)]
      | none => [("language", .text settings.reading.language)])),
    ("logging", .table .header [("level", .text settings.logLevel)])]

theorem ofLines?_lines (settings : Settings) :
    Toml.ofLines? settings.lines = some settings.entries := by
  unfold lines entries Reading.lastYearLines
  cases settings.reading.lastYear with
  | none => rfl
  | some year => rfl

theorem parse?_toText {settings : Settings} (hfits : settings.Fits) :
    Toml.parse? settings.toText = some settings.entries := by
  have hstart : ∃ rest, settings.toText.toList = '[' :: rest := by
    unfold toText
    rw [String.toList_ofList]
    exact ⟨_, rfl⟩
  have hlines : Toml.readLines? (settings.toText.toList.length + 1) settings.toText.toList =
      some settings.lines := (written_toText hfits).readLines? (Nat.lt_succ_self _)
  unfold Toml.parse?
  obtain ⟨rest, hrest⟩ := hstart
  rw [hrest] at hlines ⊢
  exact (congrArg (Option.bind · Toml.ofLines?) hlines).trans (ofLines?_lines settings)

/-! ## The table as settings -/

theorem texts?_written (texts : List String) :
    texts? (.list (texts.map .text)) = some texts := by
  change (texts.map Toml.Value.text).mapM text? = some texts
  induction texts with
  | nil => rfl
  | cons s texts ih => simp [text?, ih]

theorem integerIn?_written {low high n : Int} (hlow : low ≤ n) (hhigh : n < high) :
    integerIn? low high (.integer n) = some n :=
  if_pos ⟨hlow, hhigh⟩

theorem setupOfValue?_written (setup : Search.Setup) (hsize : setup.defaultSize < Nat.pow 2 32) :
    setupOfValue? (.table .header [
      ("nested_scopes", .list (setup.scopes.map .text)),
      ("default_sort_field", .text setup.defaultSortField),
      ("default_bucket_size", .integer setup.defaultSize),
      ("country_field", .text setup.countryField)]) = some setup := by
  have hread : (integerIn? 0 (Nat.pow 2 32) (.integer setup.defaultSize)).map Int.toNat =
      some setup.defaultSize := by
    rw [integerIn?_written (by omega) (by omega), Option.map_some, Int.toNat_natCast]
  unfold setupOfValue?
  refine Option.bind_eq_some_iff.mpr ⟨_, rfl, ?_⟩
  refine Option.bind_eq_some_iff.mpr ⟨_, texts?_written setup.scopes, ?_⟩
  refine Option.bind_eq_some_iff.mpr ⟨setup.defaultSortField, rfl, ?_⟩
  refine Option.bind_eq_some_iff.mpr ⟨_, hread, ?_⟩
  exact Option.bind_eq_some_iff.mpr ⟨setup.countryField, rfl, rfl⟩

theorem readingOfValue?_written (reading : Reading) (hyears : reading.YearsFit) :
    readingOfValue? (.table .header (
      ("min_year", .integer reading.firstYear) ::
      match reading.lastYear with
      | some year => [("max_year", .integer year), ("language", .text reading.language)]
      | none => [("language", .text reading.language)])) = some reading := by
  have hyear {year : Int} (hfits : FitsBits 32 year) :
      integerIn? (-(Nat.pow 2 31 : Int)) (Nat.pow 2 31) (.integer year) = some year :=
    integerIn?_written hfits.1 hfits.2
  unfold readingOfValue?
  refine Option.bind_eq_some_iff.mpr ⟨_, rfl, ?_⟩
  refine Option.bind_eq_some_iff.mpr ⟨_, hyear hyears.first, ?_⟩
  obtain ⟨firstYear, lastYear, language⟩ := reading
  cases lastYear with
  | none => rfl
  | some year =>
      have hlast := hyear (hyears.last year rfl)
      refine Option.bind_eq_some_iff.mpr ⟨_, congrArg (Option.map some) hlast, ?_⟩
      exact Option.bind_eq_some_iff.mpr ⟨language, rfl, rfl⟩

theorem ofEntries?_entries {settings : Settings} (hfits : settings.Fits) :
    ofEntries? settings.entries = some settings := by
  unfold ofEntries?
  refine Option.bind_eq_some_iff.mpr ⟨_, setupOfValue?_written settings.search hfits.size, ?_⟩
  refine Option.bind_eq_some_iff.mpr ⟨_, Mode.ofName?_name settings.mode, ?_⟩
  refine Option.bind_eq_some_iff.mpr ⟨_, readingOfValue?_written settings.reading hfits.years, ?_⟩
  exact Option.bind_eq_some_iff.mpr ⟨settings.logLevel, rfl, rfl⟩

/-- The text of settings is read as the same settings, which are then checked. -/
theorem load_toText {settings : Settings} (hfits : settings.Fits) :
    load settings.toText = settings.checked := by
  simp only [load, parse?_toText hfits, Option.bind_some, ofEntries?_entries hfits]

theorem saveFile_self (settings : Settings) (path : String) (files : String → Option String) :
    settings.saveFile path files path = some settings.toText :=
  if_pos rfl

theorem saveFile_of_ne {path other : String} (hne : other ≠ path) (settings : Settings)
    (files : String → Option String) : settings.saveFile path files other = files other :=
  if_neg hne

/-- Usable settings are loaded again from the file that they were saved to, whether
or not it was there before. No other file changes. -/
theorem loadFile_saveFile (settings : Settings) (hfits : settings.Fits)
    (husable : settings.fault? = none) (path : String) (files : String → Option String) :
    loadFile (settings.saveFile path files path) = .ok settings ∧
      ∀ other, other ≠ path → settings.saveFile path files other = files other := by
  refine ⟨?_, fun other hne => saveFile_of_ne hne settings files⟩
  rw [saveFile_self, loadFile, load_toText hfits, checked, husable]

/-- Settings with a string for every way of writing, and with numbers at their bounds. -/
def awkward : Settings where
  search := {
    scopes := ["it's", "lots.\"bids\" 'bidders'", "a\\'''b", "\t\n\r\x07\x7f", "\n\"\"\"\"'''"]
    defaultSortField := "'\\"
    defaultSize := 4294967295
    countryField := "" }
  mode := .strict
  reading := { firstYear := -2147483648, lastYear := some 2147483647, language := "\n''\\\n" }
  logLevel := "a = [\"b\"] # c"

theorem loadFile_saveFile_awkward :
    awkward.Fits ∧ awkward.fault? = none ∧
      loadFile (awkward.saveFile "conf/search.toml" (fun _ => none) "conf/search.toml") =
        .ok awkward :=
  have hfits : awkward.Fits :=
    { size := by decide
      years := { first := by decide, last := by rintro _ ⟨⟩; decide } }
  ⟨hfits, rfl, (loadFile_saveFile awkward hfits rfl "conf/search.toml" fun _ => none).1⟩

end TenderSearch.Settings
