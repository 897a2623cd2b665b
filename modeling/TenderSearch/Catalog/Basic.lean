import TenderSearch.Json.Basic

/-!
# The catalog of named aggregations

Thirteen aggregations have names under which applications ask for them. Every
one has a fixed request template.
-/

namespace TenderSearch.Catalog

/-- A named aggregation. -/
inductive Entry where
  | topAuthorities
  | topCompanies
  | topWinningCompanies
  | finalPriceSums
  | mainDivisions
  | countries
  | mainClassifications
  | indicators
  | companyRegions
  | authorityRegions
  | awardYears
  | awardYearsReversed
  | lotBidTotals
deriving DecidableEq

def Entry.id : Entry → String
  | .topAuthorities => "top_authorities"
  | .topCompanies => "top_companies"
  | .topWinningCompanies => "top_winning_companies"
  | .finalPriceSums => "sums_finalPrice"
  | .mainDivisions => "terms_main_cpv_divisions"
  | .countries => "terms_countries"
  | .mainClassifications => "terms_main_cpvs_full"
  | .indicators => "terms_indicators"
  | .companyRegions => "terms_company_nuts"
  | .authorityRegions => "terms_authority_nuts"
  | .awardYears => "histogram_lots_awardDecisionDate"
  | .awardYearsReversed => "histogram_lots_awardDecisionDate_reverseNested"
  | .lotBidTotals => "count_lots_bids"

def entries : List Entry :=
  [.topAuthorities, .topCompanies, .topWinningCompanies, .finalPriceSums, .mainDivisions,
    .countries, .mainClassifications, .indicators, .companyRegions, .authorityRegions,
    .awardYears, .awardYearsReversed, .lotBidTotals]

def find? (id : String) : Option Entry :=
  entries.find? fun entry => entry.id = id

theorem find?_id (entry : Entry) : find? entry.id = some entry := by
  cases entry <;> decide

theorem Entry.id_inj {entry other : Entry} (heq : entry.id = other.id) : entry = other := by
  have hfound : some entry = some other := by rw [← find?_id, heq, find?_id]
  exact Option.some.inj hfound

/-! ## Templates -/

def nestedIn (scope : String) (inner : Json.Fields) : Json :=
  .obj [("aggregations", .obj inner), ("nested", .obj [("path", .str scope)])]

/-- Fragments over the documents that satisfy a query. -/
def filteredBy (query : Json) (inner : Json.Fields) : Json :=
  .obj [("aggregations", .obj inner), ("filter", query)]

/-- The body of a terms fragment with a bucket count. -/
def termsOf (field : String) (size : Nat) : Json :=
  .obj [("field", .str field), ("size", Json.ofNat size)]

def isTrue (field : String) : Json :=
  .obj [("term", .obj [(field, .bool true)])]

def must (conditions : List Json) : Json :=
  .obj [("query", .obj [("bool", .obj [("must", .arr conditions)])])]

def topHit : Json.Fields :=
  [("hits", .obj [("top_hits", .obj [("size", Json.ofNat 1)])])]

/-- The ten largest groups, each with its first document. -/
def topGroups (field : String) : Json :=
  .obj [("aggregations", .obj topHit), ("terms", termsOf field 10)]

/-- The codes of main classifications under a key. -/
def mainCodes (key field : String) : Json :=
  nestedIn "cpvs" [("cpvs_filter", filteredBy (must [isTrue "cpvs.isMain"])
    [(key, .obj [("terms", termsOf field 10000)])])]

def regions (scope key field : String) : Json :=
  nestedIn scope [(key, .obj [("terms", termsOf field 3000000)])]

def awardDates : Json.Fields :=
  [("dates_nested", .obj [("date_histogram", .obj [
    ("field", .str "lots.awardDecisionDate"), ("interval", .str "year")])])]

def Entry.template : Entry → Json
  | .topAuthorities =>
      nestedIn "buyers" [("authorities_nested", topGroups "buyers.groupId")]
  | .topCompanies =>
      nestedIn "lots.bids.bidders" [("companies_nested", topGroups "lots.bids.bidders.groupId")]
  | .topWinningCompanies =>
      nestedIn "lots.bids" [("top_winning_companies_nested_filter",
        filteredBy (must [isTrue "lots.bids.isWinning"]) [("companies",
          nestedIn "lots.bids.bidders"
            [("companies_nested", topGroups "lots.bids.bidders.groupId")])])]
  | .finalPriceSums =>
      .obj [
        ("aggregations", .obj [
          ("sum_price", .obj [("sum", .obj [("field", .str "finalPrice.netAmount")])])]),
        ("terms", .obj [("field", .str "finalPrice.currency")])]
  | .mainDivisions => mainCodes "divisionscpvs" "cpvs.code.divisions"
  | .countries => .obj [("terms", termsOf "country" 10000)]
  | .mainClassifications => mainCodes "cpvs_full" "cpvs.code"
  | .indicators => .obj [("terms", .obj [("field", .str "indicators.type")])]
  | .companyRegions =>
      regions "lots.bids.bidders" "company_nuts_nested" "lots.bids.bidders.address.nuts"
  | .authorityRegions => regions "buyers" "authority_nuts_nested" "buyers.address.nuts"
  | .awardYears => nestedIn "lots" awardDates
  | .awardYearsReversed =>
      .obj [("aggregations", .obj awardDates),
        ("reverse_nested", .obj [("path", .str "lots")])]
  | .lotBidTotals =>
      nestedIn "lots" [
        ("lotsbids", nestedIn "lots.bids" [("lotsbids_nested_filter",
          filteredBy (isTrue "lots.bids.isWinning")
            [("lotsbids_nested", .obj [("nested", .obj [("path", .str "lots.bids.bidders")])])])]),
        ("top_reverse_nested", .obj [("reverse_nested", .obj [])])]

end TenderSearch.Catalog
