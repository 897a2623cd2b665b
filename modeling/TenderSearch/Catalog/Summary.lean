import TenderSearch.Json.Printer

/-!
# Summaries

What applications get for the answer to a named aggregation. Maps are tables
in ascending key order.
-/

namespace TenderSearch.Catalog

structure TopGroup where
  count : Nat
  document : Json

structure NamedCount where
  name : Option String
  count : Nat
deriving DecidableEq

/-- How many lots, bids and tenders there are. -/
structure Totals where
  bids : Nat
  awardedBids : Nat
  lots : Nat
  tenders : Nat
deriving DecidableEq

/-- The flat result of one named aggregation. -/
inductive Summary where
  | top (count : Nat) (groups : List TopGroup)
  | totals (totals : Totals)
  | named (counts : List (String × NamedCount))
  | amounts (sums : List (String × Binary64))
  | counts (counts : List (String × Nat))
  | yearly (counts : List (Int × Nat))

def TopGroup.toJson (group : TopGroup) : Json :=
  .obj [("value", Json.ofNat group.count), ("body", group.document)]

def NamedCount.toJson (count : NamedCount) : Json :=
  .obj [("name", Json.ofString? count.name), ("value", Json.ofNat count.count)]

def Totals.toJson (totals : Totals) : Json :=
  .obj [("bids", Json.ofNat totals.bids), ("bids_awarded", Json.ofNat totals.awardedBids),
    ("lots", Json.ofNat totals.lots), ("tenders", Json.ofNat totals.tenders)]

/-- A summary as it is printed: declared fields in their own order, years as
numbers are ordered. -/
def Summary.toJson : Summary → Json
  | .top total groups =>
      .obj [("count", Json.ofNat total), ("top10", .arr (groups.map TopGroup.toJson))]
  | .totals counters => counters.toJson
  | .named table => .obj (table.map fun (code, entry) => (code, entry.toJson))
  | .amounts table => .obj (table.map fun (key, sum) => (key, .num (.float sum)))
  | .counts table => .obj (table.map fun (key, count) => (key, Json.ofNat count))
  | .yearly table => .obj (table.map fun (year, count) =>
      (Json.Number.render (.int year), Json.ofNat count))

end TenderSearch.Catalog
