import TenderSearch.Settings.Record
import TenderSearch.Toml.Printer
import TenderSearch.Toml.Reader

/-!
# Settings files

Settings are kept in TOML text. Every table and every field may be missing,
and what is not known is ignored; settings that are read are checked.
-/

namespace TenderSearch.Settings

open Toml (Value)

/-- A part of the settings as a record: a table by the names of its entries,
a list by the places of its items. A date has no fields that are known. -/
def recordEntries? (names : List String) : Value → Option Toml.Entries
  | .table _ entries => some entries
  | .list items => some (names.zip items)
  | .tables items => some (names.zip items)
  | .date => some []
  | _ => none

/-- The value of a field, or its default where it is missing. -/
def setting? {α : Type} (name : String) (default : α) (decode : Value → Option α)
    (entries : Toml.Entries) : Option α :=
  match Table.get? name entries with
  | none => some default
  | some value => decode value

def text? : Value → Option String
  | .text s => some s
  | _ => none

/-- An integer within bounds. -/
def integerIn? (low high : Int) : Value → Option Int
  | .integer n => if low ≤ n ∧ n < high then some n else none
  | _ => none

def texts? : Value → Option (List String)
  | .list items => items.mapM text?
  | _ => none

def isEmpty : Value → Bool
  | .list [] => true
  | .tables [] => true
  | .table _ [] => true
  | _ => false

/-- A mode by its name, or as the key of an empty value in a table. Only a
table in braces has to hold nothing else. -/
def mode? : Value → Option Mode
  | .text name => Mode.ofName? name
  | .table form ((name, value) :: rest) =>
      if isEmpty value && (!form.isInline || rest.isEmpty) then Mode.ofName? name else none
  | _ => none

def setupOfValue? (value : Value) : Option Search.Setup := do
  let entries ← recordEntries?
    ["nested_scopes", "default_sort_field", "default_bucket_size", "country_field"] value
  let default := Search.Setup.standard
  let scopes ← setting? "nested_scopes" default.scopes texts? entries
  let defaultSortField ← setting? "default_sort_field" default.defaultSortField text? entries
  let defaultSize ← setting? "default_bucket_size" default.defaultSize
    (fun value => (integerIn? 0 (Nat.pow 2 32) value).map Int.toNat) entries
  let countryField ← setting? "country_field" default.countryField text? entries
  return { scopes, defaultSortField, defaultSize, countryField }

def modeOfValue? (value : Value) : Option Mode := do
  setting? "mode" standard.mode mode? (← recordEntries? ["mode"] value)

def readingOfValue? (value : Value) : Option Reading := do
  let entries ← recordEntries? ["min_year", "max_year", "language"] value
  let default := Reading.standard
  let year := integerIn? (-(Nat.pow 2 31 : Int)) (Nat.pow 2 31)
  let firstYear ← setting? "min_year" default.firstYear year entries
  let lastYear ← setting? "max_year" default.lastYear (fun value => (year value).map some) entries
  let language ← setting? "language" default.language text? entries
  return { firstYear, lastYear, language }

def logLevelOfValue? (value : Value) : Option String := do
  setting? "level" standard.logLevel text? (← recordEntries? ["level"] value)

def ofEntries? (entries : Toml.Entries) : Option Settings := do
  let search ← setting? "query" standard.search setupOfValue? entries
  let mode ← setting? "errors" standard.mode modeOfValue? entries
  let reading ← setting? "registry" standard.reading readingOfValue? entries
  let logLevel ← setting? "logging" standard.logLevel logLevelOfValue? entries
  return { search, mode, reading, logLevel }

def load (text : String) : Except LoadError Settings :=
  match (Toml.parse? text).bind ofEntries? with
  | some settings => settings.checked
  | none => .error .text

/-- The settings of a file, which has to be there. -/
def loadFile : Option String → Except LoadError Settings
  | some text => load text
  | none => .error .unreadable

/-- The settings of a file, or the standard ones where there is no file. -/
def loadOrStandard : Option String → Except LoadError Settings
  | some text => load text
  | none => .ok standard

def toText (settings : Settings) : String :=
  String.ofList (
    Toml.writeHeader "query" ++
    Toml.writeAssignment "nested_scopes" (Toml.writeTexts settings.search.scopes) ++
    Toml.writeAssignment "default_sort_field" (Toml.writeText settings.search.defaultSortField) ++
    Toml.writeAssignment "default_bucket_size" (Toml.writeInteger settings.search.defaultSize) ++
    Toml.writeAssignment "country_field" (Toml.writeText settings.search.countryField) ++
    ['\n'] ++ Toml.writeHeader "errors" ++
    Toml.writeAssignment "mode" (Toml.writeText settings.mode.name) ++
    ['\n'] ++ Toml.writeHeader "registry" ++
    Toml.writeAssignment "min_year" (Toml.writeInteger settings.reading.firstYear) ++
    (match settings.reading.lastYear with
      | some year => Toml.writeAssignment "max_year" (Toml.writeInteger year)
      | none => []) ++
    Toml.writeAssignment "language" (Toml.writeText settings.reading.language) ++
    ['\n'] ++ Toml.writeHeader "logging" ++
    Toml.writeAssignment "level" (Toml.writeText settings.logLevel))

/-- The files by their paths after settings are saved at one of them, in the place
of what was there. -/
def saveFile (settings : Settings) (path : String) (files : String → Option String) :
    String → Option String :=
  fun other => if other = path then some settings.toText else files other

end TenderSearch.Settings
