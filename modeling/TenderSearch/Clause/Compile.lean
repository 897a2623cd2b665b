import TenderSearch.Calendar
import TenderSearch.Clause.Basic
import TenderSearch.Clause.Fragment
import TenderSearch.Condition
import TenderSearch.Json.Printer
import TenderSearch.ScopeList
import TenderSearch.Text.Blank
import TenderSearch.Text.Numeral

/-!
# Compiling clauses

A clause and the clauses joined to it compile to parts of one query fragment.
A part that has nothing to filter on is left out, and a faulty clause raises a
condition and is left out too. If the clause's own field is in a nested scope,
all parts hold of one nested document there.
-/

namespace TenderSearch.Clause

/-- The number that a value stands for: a JSON number, or the longest numeral
at the head of a text after blanks. -/
def number? : Json → Option Binary64
  | .num n => n.toBinary64?
  | .str s => (Text.Numeral.free? (Text.trimStart s.toList)).bind Text.Numeral.nearest?
  | _ => none

/-- A number as it is sent to the engine: a whole number that floating-point
numbers hold exactly is written as an integer. -/
def numberToJson (x : Binary64) : Json :=
  match x.toInt? with
  | some n => if n.natAbs < Nat.pow 2 53 then Json.ofInt n else .num (.float x)
  | none => .num (.float x)

def describe : Option Json → String
  | some (.str s) => s
  | some value => value.render
  | none => "<missing>"

/-- One fragment a value; several are alternatives. -/
def anyOf (kind field : String) : List Json → Option Json
  | [] => none
  | [value] => some (Fragment.leaf kind field value)
  | values => some (Fragment.disjunction (values.map (Fragment.leaf kind field)))

/-- Alternatives of prefix phrases, also where there is only one. -/
def phrases (field : String) (values : List Json) : Option Json :=
  if values.isEmpty then none
  else some (Fragment.disjunction (values.map (Fragment.leaf "match_phrase_prefix" field)))

/-- The fragment of a comparison with a number; none for an unknown one. -/
def comparisonFragment? (field : String) (number : Json) : Comparison → Option Json
  | .equal => some (Fragment.leaf "term" field number)
  | .less => some (Fragment.leaf "range" field (.obj [("lt", number)]))
  | .greater => some (Fragment.leaf "range" field (.obj [("gt", number)]))
  | .other _ => none

def describeComparison : Option Comparison → String
  | some comparison => comparison.name
  | none => "<missing>"

def compileComparison (clause : Clause) : Report (Option Json) := do
  match clause.values.head?.bind number? with
  | none =>
      Report.raise (.invalidNumber clause.field (describe clause.values.head?))
      return none
  | some number =>
      match clause.comparison.bind (comparisonFragment? clause.field (numberToJson number)) with
      | some fragment => return some fragment
      | none =>
          Report.raise
            (.unsupportedComparison clause.field (describeComparison clause.comparison))
          return none

/-- The starts of the first two years that the values name. -/
def yearBounds? : List Json → Option (Int × Int)
  | start :: stop :: _ => do
      let start ← Calendar.yearStart? start
      let stop ← Calendar.yearStart? stop
      return (start, stop)
  | _ => none

/-- Compiles a range of years, closed below and open above. -/
def compileYears (clause : Clause) : Report (Option Json) := do
  match yearBounds? clause.values with
  | none =>
      Report.raise (.invalidNumber clause.field (Json.render (.arr clause.values)))
      return none
  | some (start, stop) =>
      return some (Fragment.leaf "range" clause.field
        (.obj [("gte", Json.ofInt start), ("lt", Json.ofInt stop)]))

/-- Compiles a clause alone, without the joined clauses and without a nested
scope. -/
def compileAlone (clause : Clause) : Report (Option Json) :=
  match clause.kind with
  | .select => return some (Fragment.leaf "terms" clause.field (.arr clause.values))
  | .term => return anyOf "term" clause.field clause.values
  | .matches => return anyOf "match" clause.field clause.values
  | .text => return phrases clause.field clause.values
  | .value => compileComparison clause
  | .range => compileYears clause
  | .date => return none
  | .unsupported name => do
      Report.raise (.unsupportedClause name)
      return none

def compileParts : List Clause → Report (List Json)
  | [] => return []
  | clause :: rest => do
      let part ← compileAlone clause
      let parts ← compileParts rest
      return part.toList ++ parts

/-- One fragment for the parts of a clause in a scope. -/
def combine (scope : Option String) (parts : List Json) : Option Json :=
  match scope, parts with
  | _, [] => none
  | some scope, parts => some (Fragment.nested scope (Fragment.conjunction parts))
  | none, [part] => some part
  | none, parts => some (Fragment.conjunction parts)

def compile (scopes : ScopeList) (clause : Clause) : Report (Option Json) := do
  let parts ← compileParts (clause :: clause.joined)
  return combine (scopes.resolve clause.field) parts

end TenderSearch.Clause
