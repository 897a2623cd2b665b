/-!
# Nested scopes

The search engine indexes some regions of a document as separate nested
documents. A scope is the path of such a region. Scopes are tried in the order
of their list, so a deeper scope has to stand before its parents.
-/

namespace TenderSearch

/-- Known nested scopes in order of priority. -/
abbrev ScopeList := List String

namespace ScopeList

/-- A field is in a scope when it starts with the scope's whole segments and
has at least one dot after them. -/
def contains (scope field : String) : Bool :=
  (scope.toList ++ ['.']).isPrefixOf field.toList

/-- The first scope of the list that the field is in. -/
def resolve (scopes : ScopeList) (field : String) : Option String :=
  scopes.find? fun scope => contains scope field

/-- The scopes of procurement documents. -/
def standard : ScopeList :=
  ["lots.bids.bidders", "lots.bids", "lots.cpvs", "lots", "buyers", "cpvs"]

theorem contains_iff {scope field : String} :
    contains scope field = true ↔ ∃ rest, scope.toList ++ '.' :: rest = field.toList := by
  simp [contains, List.isPrefixOf_iff_prefix, List.IsPrefix]

end ScopeList

end TenderSearch
