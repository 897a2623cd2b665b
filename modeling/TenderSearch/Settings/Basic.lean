import TenderSearch.Condition
import TenderSearch.Search.Body

/-!
# Settings

What a user can set: how searches are built, what happens to reported
conditions, how the catalog's answers are read, and how much is logged.
-/

namespace TenderSearch

structure Settings.Reading where
  firstYear : Int
  /-- The current year where it is not set. -/
  lastYear : Option Int
  language : String
deriving DecidableEq

structure Settings where
  search : Search.Setup
  mode : Mode
  reading : Settings.Reading
  logLevel : String
deriving DecidableEq

namespace Settings

def Reading.standard : Reading :=
  { firstYear := 2006, lastYear := none, language := "EN" }

/-- The settings where nothing is set. -/
def standard : Settings :=
  { search := Search.Setup.standard, mode := .lenient, reading := Reading.standard,
    logLevel := "info" }

def strictly (settings : Settings) : Settings :=
  { settings with mode := .strict }

/-- What makes settings unusable. -/
inductive Fault where
  | scope (path : String)
  | noSortField
  | years (first last : Int)
deriving DecidableEq

/-- A scope path has no empty segment at its ends. -/
def isScopePath (path : String) : Bool :=
  match path.toList with
  | [] => false
  | first :: rest => first ≠ '.' && (first :: rest).getLast? ≠ some '.'

/-- The first thing that is wrong with settings. -/
def fault? (settings : Settings) : Option Fault :=
  match settings.search.scopes.find? fun path => !isScopePath path with
  | some path => some (.scope path)
  | none =>
      if settings.search.defaultSortField = "" then some .noSortField
      else
        match settings.reading.lastYear with
        | some last =>
            if last < settings.reading.firstYear then
              some (.years settings.reading.firstYear last)
            else none
        | none => none

inductive LoadError where
  /-- There is no file, or it cannot be read. -/
  | unreadable
  | text
  | fault (fault : Fault)
deriving DecidableEq

def Fault.message : Fault → String
  | .scope path => "Config error: invalid nested scope path '" ++ path ++ "'"
  | .noSortField => "Config error: default_sort_field must not be empty"
  | .years first last =>
      "Config error: registry.max_year " ++ toString last ++ " is before min_year " ++
        toString first

def checked (settings : Settings) : Except LoadError Settings :=
  match settings.fault? with
  | some fault => .error (.fault fault)
  | none => .ok settings

end Settings

end TenderSearch
