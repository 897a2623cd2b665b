import TenderSearch.Aggregation.Basic
import TenderSearch.Clause.Basic

/-!
# Searches

A search as an application asks for it: clauses to filter by, a sort order,
and aggregations over what is found.
-/

namespace TenderSearch

structure SortOrder where
  field : Option String
  ascending : Bool
deriving DecidableEq

/-- Everything that a search asks for. -/
structure Search where
  sort : Option SortOrder
  filters : List Clause
  aggregations : Option (List Aggregation)

end TenderSearch
