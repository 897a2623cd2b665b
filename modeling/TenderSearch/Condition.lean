/-!
# Reported conditions

What can be wrong with well-typed options or with an answer, and the two ways
to deal with it: strict work stops at the first condition, lenient work
records every condition and goes on with a degraded result.
-/

namespace TenderSearch

inductive Condition where
  | unknownAggregation (id : String)
  | unsupportedClause (kind : String)
  | unsupportedComparison (field mode : String)
  | invalidNumber (field value : String)
  | unexpectedQuery (shape : String)
  | malformedAnswer (id path : String)
deriving DecidableEq

namespace Condition

def kind : Condition → String
  | .unknownAggregation _ => "unknown_aggregation_id"
  | .unsupportedClause _ => "unsupported_filter_kind"
  | .unsupportedComparison _ _ => "unsupported_compare_mode"
  | .invalidNumber _ _ => "invalid_numeric_value"
  | .unexpectedQuery _ => "inconsistent_query_shape"
  | .malformedAnswer _ _ => "malformed_answer"

def message : Condition → String
  | .unknownAggregation id => "Unknown aggregation id: " ++ id
  | .unsupportedClause kind => "Unsupported filter kind: " ++ kind
  | .unsupportedComparison field mode =>
      "Unsupported compare mode for field " ++ field ++ ": " ++ mode
  | .invalidNumber field value =>
      "Invalid numeric value for field " ++ field ++ ": " ++ value
  | .unexpectedQuery shape => "Inconsistent query shape: " ++ shape
  | .malformedAnswer id path =>
      "Malformed answer for aggregation " ++ id ++ ": missing " ++ path

end Condition

/-- What happens when a condition is raised. -/
inductive Mode where
  | strict
  | lenient
deriving DecidableEq

/-- Work that may raise conditions. What has been recorded stays recorded when
the work ends with a condition. -/
abbrev Report := ReaderT Mode (ExceptT Condition (StateM (List Condition)))

namespace Report

/-- Raises a condition: strict work ends with it, lenient work records it
after the earlier ones. -/
def raise (condition : Condition) : Report Unit := do
  match ← read with
  | .strict => throw condition
  | .lenient => modify (· ++ [condition])

/-- Runs work in a mode, after earlier conditions. The outcome comes with all
the conditions that are recorded then. -/
def runIn {α : Type} (mode : Mode) (earlier : List Condition) (work : Report α) :
    Except Condition α × List Condition :=
  (work.run mode).run.run earlier

variable {α β : Type} (mode : Mode) (earlier : List Condition)

@[simp] theorem runIn_pure (a : α) :
    runIn mode earlier (pure a) = (.ok a, earlier) := rfl

@[simp] theorem runIn_bind (work : Report α) (next : α → Report β) :
    runIn mode earlier (work >>= next) =
      match runIn mode earlier work with
      | (.ok a, later) => runIn mode later (next a)
      | (.error condition, later) => (.error condition, later) := by
  simp only [runIn, ReaderT.run_bind, ExceptT.run_bind, StateT.run_bind]
  rcases hrun : StateT.run (ReaderT.run work mode).run earlier with ⟨_ | _, _⟩ <;> rfl

@[simp] theorem runIn_strict_raise (condition : Condition) :
    runIn .strict earlier (raise condition) = (.error condition, earlier) := rfl

@[simp] theorem runIn_lenient_raise (condition : Condition) :
    runIn .lenient earlier (raise condition) = (.ok (), earlier ++ [condition]) := rfl

end Report

end TenderSearch
