import TenderSearch.Clause.Fragment

/-!
# Preset queries

Queries that dashboards and pages of buyers and bidders use.
-/

namespace TenderSearch.Preset

def byBuyers (ids : List String) : Json :=
  Fragment.nested "buyers" (Fragment.leaf "terms" "buyers.groupId" (Json.ofStrings ids))

def byBidders (ids : List String) : Json :=
  Fragment.nested "lots.bids" (Fragment.nested "lots.bids.bidders"
    (Fragment.leaf "terms" "lots.bids.bidders.groupId" (Json.ofStrings ids)))

/-- Tenders whose main classification has a code in a field. -/
def byMainCode (field code : String) : Json :=
  Fragment.nested "cpvs" (Fragment.conjunction [
    Fragment.leaf "term" field (.str code),
    Fragment.leaf "term" "cpvs.isMain" (.bool true)])

/-- Tenders whose main classification is in a division. -/
def byMainDivision (code : String) : Json :=
  byMainCode "cpvs.code.divisions" code

/-- Tenders with exactly this main classification. -/
def byMainClassification (code : String) : Json :=
  byMainCode "cpvs.code" code

/-- The query restricted to a country; no country and the empty one do not
restrict. -/
def inCountry (query : Json) (countryField : String) : Option String → Json
  | some country =>
      if country = "" then query
      else Fragment.conjunction [query, Fragment.leaf "term" countryField (.str country)]
  | none => query

end TenderSearch.Preset
