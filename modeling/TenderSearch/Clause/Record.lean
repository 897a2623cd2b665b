import TenderSearch.Clause.Basic
import TenderSearch.Json.Record

/-!
# Clauses as records

Reading a clause from a JSON value and writing it. One value may stand for a
list of one, and null for a list of none.
-/

namespace TenderSearch.Clause

open Json

def fieldNames : List String :=
  ["type", "field", "value", "mode", "and"]

/-- A list is taken as it is, null is the empty list, and any other value is a
list of one. -/
def oneOrMany : Json → List Json
  | .arr items => items
  | .null => []
  | value => [value]

def build? (fields : Fields) (joined : List Clause) : Option Clause := do
  let kind ← required? "type" string? fields
  let field ← required? "field" string? fields
  let values ← defaulted? "value" [] (fun value => some (oneOrMany value)) fields
  let comparison ← optional? "mode" string? fields
  return { kind := Kind.ofName kind, field, values,
           comparison := comparison.map Comparison.ofName, joined }

mutual

def ofJson? : Json → Option Clause
  | .obj fields => do build? fields (← joinedByName? fields)
  | .arr items => do
      let joined ← joinedByPlace? items
      build? (← recordFields? fieldNames (.arr items)) joined
  | _ => none

def joinedByName? : List (String × Json) → Option (List Clause)
  | [] => some []
  | (key, value) :: rest => if key = "and" then joined? value else joinedByName? rest

def joinedByPlace? : List Json → Option (List Clause)
  | [_, _, _, _, value] => joined? value
  | _ => some []

def joined? : Json → Option (List Clause)
  | .arr items => ofItems? items
  | _ => none

def ofItems? : List Json → Option (List Clause)
  | [] => some []
  | item :: rest => do
      let clause ← ofJson? item
      return clause :: (← ofItems? rest)

end

mutual

def toJson : Clause → Json
  | { kind, field, values, comparison, joined } =>
      .obj (fieldUnless joined.isEmpty "and" (.arr (toItems joined)) ++
        [("field", .str field)] ++
        fieldUnless comparison.isNone "mode" (ofString? (comparison.map Comparison.name)) ++
        [("type", .str kind.name), ("value", .arr values)])

def toItems : List Clause → List Json
  | [] => []
  | clause :: rest => toJson clause :: toItems rest

end

end TenderSearch.Clause
