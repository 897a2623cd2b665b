import TenderSearch.Aggregation.Basic
import TenderSearch.Json.Record

/-!
# Aggregations as records

Reading an aggregation from a JSON value and writing it.
-/

namespace TenderSearch.Aggregation

open Json

def fieldNames : List String :=
  ["field", "type", "size", "aggregations"]

def build? (fields : Fields) (children : List Aggregation) : Option Aggregation := do
  let field ← optional? "field" string? fields
  let kind ← defaulted? "type" Kind.terms (fun value => value.string?.map Kind.ofName) fields
  let size ← optional? "size" (natOfBits? 32) fields
  return { field, kind, size, children }

mutual

def ofJson? : Json → Option Aggregation
  | .obj fields => do build? fields (← childrenByName? fields)
  | .arr items => do
      let children ← childrenByPlace? items
      build? (← recordFields? fieldNames (.arr items)) children
  | _ => none

def childrenByName? : List (String × Json) → Option (List Aggregation)
  | [] => some []
  | (key, value) :: rest =>
      if key = "aggregations" then children? value else childrenByName? rest

def childrenByPlace? : List Json → Option (List Aggregation)
  | [_, _, _, value] => children? value
  | _ => some []

def children? : Json → Option (List Aggregation)
  | .arr items => ofItems? items
  | _ => none

def ofItems? : List Json → Option (List Aggregation)
  | [] => some []
  | item :: rest => do
      let aggregation ← ofJson? item
      return aggregation :: (← ofItems? rest)

end

mutual

def toJson : Aggregation → Json
  | { field, kind, size, children } =>
      .obj (fieldUnless children.isEmpty "aggregations" (.arr (toItems children)) ++
        [("field", ofString? field)] ++
        fieldUnless size.isNone "size" (ofNat (size.getD 0)) ++
        [("type", .str kind.name)])

def toItems : List Aggregation → List Json
  | [] => []
  | aggregation :: rest => toJson aggregation :: toItems rest

end

end TenderSearch.Aggregation
