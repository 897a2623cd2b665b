import TenderSearch.Binary64.Basic
import TenderSearch.Table

/-!
# TOML values

Tables keep their entries in the order of their definition and remember how
they were defined, because that decides what may still be added to them.
-/

namespace TenderSearch.Toml

/-- How a table was defined. -/
inductive Form where
  /-- By braces; closed. -/
  | inline
  /-- By its own header. -/
  | header
  /-- As the parent of a header. -/
  | implied
  /-- As the parent in a dotted key, perhaps inside braces. -/
  | dotted (inside : Bool)
deriving DecidableEq

inductive Value where
  | text (s : String)
  | integer (n : Int)
  /-- A floating-point number; none if it is not finite. -/
  | float (x : Option Binary64)
  | boolean (b : Bool)
  /-- A date, a time of day, or both. -/
  | date
  | list (items : List Value)
  /-- The tables of repeated headers. -/
  | tables (items : List Value)
  | table (form : Form) (entries : List (String × Value))

/-- The entries of a table in the order of their definition. -/
abbrev Entries := List (String × Value)

namespace Form

/-- May become a table with a header of its own. -/
def isImplied : Form → Bool
  | .implied => true
  | _ => false

/-- May get entries by dotted keys. -/
def isDotted : Form → Bool
  | .dotted _ => true
  | _ => false

/-- Was written inside braces. -/
def isInline : Form → Bool
  | .inline => true
  | .dotted inside => inside
  | _ => false

end Form

namespace Entries

/-- Adds an entry at the end, unless the key is taken. -/
def add? (key : String) (value : Value) (entries : Entries) : Option Entries :=
  if Table.has key entries then none else some (entries ++ [(key, value)])

/-- Changes the value under a key, which has to be there. -/
def change? (key : String) (f : Value → Option Value) : Entries → Option Entries
  | [] => none
  | (k, v) :: rest =>
      if k = key then (f v).map fun v => (k, v) :: rest
      else (change? key f rest).map ((k, v) :: ·)

/-- Changes the last of several tables. -/
def changeLast? (f : Value → Option Value) : List Value → Option (List Value)
  | [] => none
  | [item] => (f item).map fun item => [item]
  | item :: rest => (changeLast? f rest).map (item :: ·)

/-- Assigns a value to a dotted key below a table that may or may not get
entries by dotted keys itself. Tables on the way are made where they are
missing; those with a header or braces cannot be reached. -/
def assignBelow? (inside dotted : Bool) :
    List String → Value → Entries → Option Entries
  | [], _, _ => none
  | [key], value, entries => if dotted then add? key value entries else none
  | key :: next :: path, value, entries =>
      if Table.has key entries then
        change? key (fun
          | .table form inner =>
              if form.isImplied || form.isDotted then
                (assignBelow? inside form.isDotted (next :: path) value inner).map (.table form)
              else none
          | .tables items =>
              (changeLast? (fun
                | .table form inner =>
                    (assignBelow? inside false (next :: path) value inner).map (.table form)
                | _ => none) items).map .tables
          | _ => none) entries
      else
        (assignBelow? inside true (next :: path) value []).map fun inner =>
          entries ++ [(key, .table (.dotted inside) inner)]

/-- Assigns a value to a key of a table, which may be dotted. -/
def assign? (inside : Bool) (entries : Entries) : List String × Value → Option Entries
  | ([key], value) => add? key value entries
  | (path, value) => assignBelow? inside false path value entries

/-- The table of several assignments. -/
def assignAll? (inside : Bool) (entries : Entries) (assignments : List (List String × Value)) :
    Option Entries :=
  assignments.foldlM (assign? inside) entries

/-- Changes the entries of the table at a path of headers, which is made where
it is missing. A path through repeated tables leads to the last of them. -/
def within? (f : Entries → Option Entries) : List String → Entries → Option Entries
  | [], entries => f entries
  | key :: path, entries =>
      if Table.has key entries then
        change? key (fun
          | .table form inner =>
              if form.isInline then none else (within? f path inner).map (.table form)
          | .tables items =>
              (changeLast? (fun
                | .table form inner => (within? f path inner).map (.table form)
                | _ => none) items).map .tables
          | _ => none) entries
      else
        (within? f path []).map fun inner => entries ++ [(key, .table .implied inner)]

/-- Adds the table of a header. A table that was only implied so far keeps its
entries; any other may be defined only once. -/
def addTable? (key : String) (assignments : List (List String × Value)) (entries : Entries) :
    Option Entries :=
  match Table.get? key entries with
  | none =>
      (assignAll? false [] assignments).map fun inner =>
        entries ++ [(key, .table .header inner)]
  | some (.table .implied inner) =>
      (assignAll? false inner assignments).map fun inner =>
        Table.erase key entries ++ [(key, .table .header inner)]
  | some _ => none

/-- Adds one more table of a repeated header. -/
def addRepeated? (key : String) (assignments : List (List String × Value))
    (entries : Entries) : Option Entries := do
  let inner ← assignAll? false [] assignments
  match Table.get? key entries with
  | none => return entries ++ [(key, .tables [.table .header inner])]
  | some (.tables items) =>
      change? key (fun _ => some (.tables (items ++ [.table .header inner]))) entries
  | some _ => none

end Entries

end TenderSearch.Toml
