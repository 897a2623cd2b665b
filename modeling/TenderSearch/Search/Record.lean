import TenderSearch.Aggregation.Record
import TenderSearch.Clause.Record
import TenderSearch.Search.Basic

/-!
# Searches as records

Reading searches and their parts from JSON values or directly from text, and
writing them.
-/

namespace TenderSearch

open Json

namespace SortOrder

def fieldNames : List String :=
  ["field", "ascend"]

def ofJson? (value : Json) : Option SortOrder := do
  let fields ← recordFields? fieldNames value
  let field ← optional? "field" string? fields
  let ascending ← defaulted? "ascend" false bool? fields
  return { field, ascending }

def toJson (sort : SortOrder) : Json :=
  .obj [("ascend", .bool sort.ascending), ("field", ofString? sort.field)]

end SortOrder

namespace Search

def fieldNames : List String :=
  ["sort", "filters", "aggregations"]

def ofJson? (value : Json) : Option Search := do
  let fields ← recordFields? fieldNames value
  let sort ← optional? "sort" SortOrder.ofJson? fields
  let filters ← defaulted? "filters" [] Clause.joined? fields
  let aggregations ← optional? "aggregations" Aggregation.children? fields
  return { sort, filters, aggregations }

def toJson (search : Search) : Json :=
  .obj (fieldUnless search.aggregations.isNone "aggregations"
      (.arr (Aggregation.toItems (search.aggregations.getD []))) ++
    fieldUnless search.filters.isEmpty "filters" (.arr (Clause.toItems search.filters)) ++
    [("sort", (search.sort.map SortOrder.toJson).getD .null)])

/-- The records that a search consists of. -/
inductive Part where
  | search
  | sort
  | clause
  | aggregation

/-- The declared fields of the parts of a search. -/
def Part.declared : Part → List (String × Layout Part)
  | .search =>
      [("sort", .record .sort), ("filters", .records .clause),
        ("aggregations", .records .aggregation)]
  | .sort => [("field", .value), ("ascend", .value)]
  | .clause =>
      [("type", .value), ("field", .value), ("value", .value), ("mode", .value),
        ("and", .records .clause)]
  | .aggregation =>
      [("field", .value), ("type", .value), ("size", .value),
        ("aggregations", .records .aggregation)]

def Part.parse? {α : Type} (part : Part) (ofJson? : Json → Option α) (text : String) :
    Option α :=
  (parseRecord? Part.declared part text).bind ofJson?

end Search

end TenderSearch
