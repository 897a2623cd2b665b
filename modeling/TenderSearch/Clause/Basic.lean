import TenderSearch.Json.Basic

/-!
# Filter clauses

A clause says declaratively what documents to keep. A kind or a comparison
that is not known is kept by its name, so that compiling can report it.
-/

namespace TenderSearch

inductive Clause.Kind where
  /-- The field holds a value of a set. -/
  | select
  /-- The field holds one of the values exactly. -/
  | term
  /-- The field matches one of the analysed values. -/
  | matches
  /-- The field holds a phrase that starts with one of the values. -/
  | text
  /-- The field compares to a number. -/
  | value
  /-- The field lies between the starts of two calendar years. -/
  | range
  /-- The field is a sort key and does not filter. -/
  | date
  | unsupported (name : String)
deriving DecidableEq

inductive Comparison where
  | equal
  | less
  | greater
  | other (name : String)
deriving DecidableEq

/-- A filter clause. The clauses that are joined to it decide neither the
nested scope nor, by their own joined clauses, anything else. -/
structure Clause where
  kind : Clause.Kind
  field : String
  values : List Json
  comparison : Option Comparison
  joined : List Clause

namespace Clause

def Kind.known : List (String × Kind) :=
  [("select", .select), ("term", .term), ("match", .matches), ("text", .text),
    ("value", .value), ("range", .range), ("date", .date)]

def Kind.name : Kind → String
  | .select => "select"
  | .term => "term"
  | .matches => "match"
  | .text => "text"
  | .value => "value"
  | .range => "range"
  | .date => "date"
  | .unsupported name => name

def Kind.ofName (name : String) : Kind :=
  (Table.get? name Kind.known).getD (.unsupported name)

end Clause

namespace Comparison

def known : List (String × Comparison) :=
  [("=", .equal), ("<", .less), (">", .greater)]

def name : Comparison → String
  | .equal => "="
  | .less => "<"
  | .greater => ">"
  | .other name => name

def ofName (name : String) : Comparison :=
  (Table.get? name known).getD (.other name)

end Comparison

namespace Clause

/-- A clause without a comparison and without joined clauses. -/
def plain (kind : Kind) (field : String) (values : List Json) : Clause :=
  { kind, field, values, comparison := none, joined := [] }

/-- A comparison with one value. -/
def compare (field : String) (comparison : Comparison) (value : Json) : Clause :=
  { plain .value field [value] with comparison := some comparison }

/-- A range of calendar years, the second of which is excluded. -/
def years (field : String) (start stop : Int) : Clause :=
  plain .range field [Json.ofInt start, Json.ofInt stop]

/-- The clause with another one joined to it. -/
def join (clause other : Clause) : Clause :=
  { clause with joined := clause.joined ++ [other] }

theorem Kind.ofName_name {kind : Kind}
    (h : ∀ name, kind = .unsupported name → Table.get? name Kind.known = none) :
    Kind.ofName kind.name = kind := by
  cases kind with
  | unsupported name => simp [Kind.ofName, Kind.name, h name rfl]
  | _ => rfl

end Clause

end TenderSearch
