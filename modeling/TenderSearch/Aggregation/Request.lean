import TenderSearch.Aggregation.Basic
import TenderSearch.ScopeList

/-!
# Aggregation requests

Aggregations become a map of engine fragments, keyed by the field with
underscores for its dots and a suffix for some kinds. A field in a nested
scope becomes a terms fragment inside one wrapper for that scope, whatever its
kind, and carries no children. Where several aggregations have one key, the
last one stays.
-/

namespace TenderSearch.Aggregation

/-- The key of a field: `lots.bids.price` becomes `lots_bids_price`. -/
def keyOf (field : String) : String :=
  String.ofList (field.toList.map fun c => if c = '.' then '_' else c)

/-- What a wrapped layer's key ends with. -/
def nestedSuffix : String := "_nested"

def termsBody (field : String) (size : Nat) : Json :=
  .obj [("field", .str field), ("size", Json.ofNat size)]

/-- A terms fragment inside a wrapper for a nested scope. -/
def wrapped (scope field : String) (size : Nat) : Json :=
  .obj [
    ("aggregations",
      .obj [(keyOf field ++ nestedSuffix, .obj [("terms", termsBody field size)])]),
    ("nested", .obj [("path", .str scope)])]

/-- A terms fragment; the map of the fragments inside it is there only if
there are aggregations inside. -/
def termsFragment (field : String) (size : Nat) (children : Option Json.Fields) : Json :=
  match children with
  | none => .obj [("terms", termsBody field size)]
  | some inner => .obj [("aggregations", .obj inner), ("terms", termsBody field size)]

def sumFragment (field : String) : Json :=
  .obj [("sum", .obj [("field", .str field)])]

/-- The first document, reduced to a field. -/
def topFragment (field : String) : Json :=
  .obj [("top_hits", .obj [
    ("_source", .obj [("include", .arr [.str field])]),
    ("size", Json.ofNat 1)])]

/-- One bucket a year. -/
def histogramFragment (field : String) : Json :=
  .obj [("date_histogram", .obj [("field", .str field), ("interval", .str "year")])]

/-- The key and the fragment of an aggregation on a field, given the map of the
aggregations inside it. -/
def keyedFragment? (scopes : ScopeList) (field : String) (kind : Kind) (size : Nat)
    (children : Option Json.Fields) : Option (String × Json) :=
  let key := keyOf field
  match scopes.resolve field with
  | some scope => some (key, wrapped scope field size)
  | none =>
      match kind with
      | .terms => some (key, termsFragment field size children)
      | .sum => some (key ++ "_sum", sumFragment field)
      | .top => some (key ++ "_hits", topFragment field)
      | .histogram => some (key ++ "_over_time", histogramFragment field)
      | .value => none

def place (map : Json.Fields) : Option (String × Json) → Json.Fields
  | some (key, fragment) => Table.insert key fragment map
  | none => map

mutual

def addTo (scopes : ScopeList) (defaultSize : Nat) (map : Json.Fields) :
    Aggregation → Json.Fields
  | { field := none, .. } => map
  | { field := some field, kind, size, children } =>
      let inner := match children with
        | [] => none
        | first :: rest => some (addAll scopes defaultSize [] (first :: rest))
      place map (keyedFragment? scopes field kind (size.getD defaultSize) inner)

/-- Adds the fragments of aggregations to a map, one after the other. -/
def addAll (scopes : ScopeList) (defaultSize : Nat) (map : Json.Fields) :
    List Aggregation → Json.Fields
  | [] => map
  | aggregation :: rest =>
      addAll scopes defaultSize (addTo scopes defaultSize map aggregation) rest

end

def request (scopes : ScopeList) (defaultSize : Nat) (aggregations : List Aggregation) :
    Json.Fields :=
  addAll scopes defaultSize [] aggregations

end TenderSearch.Aggregation
