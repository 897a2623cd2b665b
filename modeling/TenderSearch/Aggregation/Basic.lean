import TenderSearch.Json.Basic

/-!
# Aggregations

What to count or sum over the documents that are found. An aggregation
without a field asks for nothing, and a kind that is not known means terms.
-/

namespace TenderSearch

inductive Aggregation.Kind where
  | terms
  | sum
  | top
  | histogram
  | value
deriving DecidableEq

structure Aggregation where
  field : Option String
  kind : Aggregation.Kind
  size : Option Nat
  children : List Aggregation

namespace Aggregation

def Kind.name : Kind → String
  | .terms => "terms"
  | .sum => "sum"
  | .top => "top"
  | .histogram => "histogram"
  | .value => "value"

/-- The kinds that are not the fallback, by their names. -/
def Kind.known : List (String × Kind) :=
  [("sum", .sum), ("top", .top), ("histogram", .histogram), ("value", .value)]

def Kind.ofName (name : String) : Kind :=
  (Table.get? name Kind.known).getD .terms

theorem Kind.ofName_name (kind : Kind) : Kind.ofName kind.name = kind := by
  cases kind <;> rfl

def on (kind : Kind) (field : String) : Aggregation :=
  { field := some field, kind, size := none, children := [] }

/-- The aggregation with another one inside its buckets. -/
def inside (aggregation child : Aggregation) : Aggregation :=
  { aggregation with children := aggregation.children ++ [child] }

end Aggregation

end TenderSearch
