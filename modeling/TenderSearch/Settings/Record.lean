import TenderSearch.Json.Record
import TenderSearch.Settings.Basic

/-!
# Settings as records

Reading settings from JSON values or directly from text, and writing them.
Every field has a default.
-/

namespace TenderSearch

open Json

namespace Mode

def name : Mode → String
  | .strict => "strict"
  | .lenient => "lenient"

def ofName? : String → Option Mode
  | "strict" => some .strict
  | "lenient" => some .lenient
  | _ => none

/-- A mode by its name, or as an object with the name as its only key and
null. -/
def ofJson? : Json → Option Mode
  | .str name => ofName? name
  | .obj [(name, .null)] => ofName? name
  | _ => none

end Mode

namespace Settings

def setupOfJson? (value : Json) : Option Search.Setup := do
  let fields ← recordFields?
    ["nested_scopes", "default_sort_field", "default_bucket_size", "country_field"] value
  let default := Search.Setup.standard
  let scopes ← defaulted? "nested_scopes" default.scopes strings? fields
  let defaultSortField ← defaulted? "default_sort_field" default.defaultSortField string? fields
  let defaultSize ← defaulted? "default_bucket_size" default.defaultSize (natOfBits? 32) fields
  let countryField ← defaulted? "country_field" default.countryField string? fields
  return { scopes, defaultSortField, defaultSize, countryField }

def modeOfJson? (value : Json) : Option Mode := do
  defaulted? "mode" standard.mode Mode.ofJson? (← recordFields? ["mode"] value)

def readingOfJson? (value : Json) : Option Reading := do
  let fields ← recordFields? ["min_year", "max_year", "language"] value
  let default := Reading.standard
  let firstYear ← defaulted? "min_year" default.firstYear (intOfBits? 32) fields
  let lastYear ← optional? "max_year" (intOfBits? 32) fields
  let language ← defaulted? "language" default.language string? fields
  return { firstYear, lastYear, language }

def logLevelOfJson? (value : Json) : Option String := do
  defaulted? "level" standard.logLevel string? (← recordFields? ["level"] value)

def ofJson? (value : Json) : Option Settings := do
  let fields ← recordFields? ["query", "errors", "registry", "logging"] value
  let search ← defaulted? "query" standard.search setupOfJson? fields
  let mode ← defaulted? "errors" standard.mode modeOfJson? fields
  let reading ← defaulted? "registry" standard.reading readingOfJson? fields
  let logLevel ← defaulted? "logging" standard.logLevel logLevelOfJson? fields
  return { search, mode, reading, logLevel }

def toJson (settings : Settings) : Json :=
  .obj [
    ("errors", .obj [("mode", .str settings.mode.name)]),
    ("logging", .obj [("level", .str settings.logLevel)]),
    ("query", .obj [
      ("country_field", .str settings.search.countryField),
      ("default_bucket_size", ofNat settings.search.defaultSize),
      ("default_sort_field", .str settings.search.defaultSortField),
      ("nested_scopes", ofStrings settings.search.scopes)]),
    ("registry", .obj [
      ("language", .str settings.reading.language),
      ("max_year", (settings.reading.lastYear.map ofInt).getD .null),
      ("min_year", ofInt settings.reading.firstYear)])]

inductive Part where
  | settings
  | query
  | errors
  | registry
  | logging

/-- The declared fields of the parts of settings. -/
def Part.declared : Part → List (String × Layout Part)
  | .settings =>
      [("query", .record .query), ("errors", .record .errors), ("registry", .record .registry),
        ("logging", .record .logging)]
  | .query =>
      [("nested_scopes", .value), ("default_sort_field", .value),
        ("default_bucket_size", .value), ("country_field", .value)]
  | .errors => [("mode", .choice)]
  | .registry => [("min_year", .value), ("max_year", .value), ("language", .value)]
  | .logging => [("level", .value)]

def parseJson? (text : String) : Option Settings :=
  (parseRecord? Part.declared .settings text).bind ofJson?

end Settings

end TenderSearch
