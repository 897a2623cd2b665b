import TenderSearch.Catalog.Answer
import TenderSearch.Condition

/-!
# Selections from the catalog

A selection is a list of entries without repetition. It has one combined
request, and it reads the answer to that request entry by entry.
-/

namespace TenderSearch.Catalog

/-- Selected entries in the order in which they were first asked for. -/
abbrev Selection := List Entry

/-- Adds the entries with the given ids to a selection. Ids that are not known
are reported, and entries that are there already are left out. -/
def selectAfter (selected : Selection) : List String → Report Selection
  | [] => return selected
  | id :: rest =>
      match find? id with
      | some entry =>
          selectAfter (if entry ∈ selected then selected else selected ++ [entry]) rest
      | none => do
          Report.raise (.unknownAggregation id)
          selectAfter selected rest

def select (ids : List String) : Report Selection :=
  selectAfter [] ids

namespace Selection

def ids (selection : Selection) : List String :=
  selection.map Entry.id

/-- The templates of the selected entries under their ids. -/
def request (selection : Selection) : Json.Fields :=
  Table.ofList (selection.map fun entry => (entry.id, entry.template))

/-- Adds the summaries of selected entries to a table. An entry whose part of
the answer cannot be read is reported and left out. -/
def readAfter (context : Context) (answer : Json) (table : List (String × Summary)) :
    List Entry → Report (List (String × Summary))
  | [] => return table
  | entry :: rest =>
      match entry.read context answer with
      | .ok summary => readAfter context answer (Table.insert entry.id summary table) rest
      | .error path => do
          Report.raise (.malformedAnswer entry.id path)
          readAfter context answer table rest

/-- Reads an answer into the summaries of the selected entries. -/
def read (context : Context) (answer : Json) (selection : Selection) :
    Report (List (String × Summary)) :=
  readAfter context answer [] selection

end Selection

end TenderSearch.Catalog
