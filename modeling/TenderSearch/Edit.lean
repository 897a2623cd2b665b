import TenderSearch.Condition

/-!
# Work in place

Work that changes a value where it stands and may raise conditions. Strict work
that ends with a condition leaves the value behind as far as it was changed.
-/

namespace TenderSearch

/-- Work on a value that may raise conditions. There is something left of the
value however the work ends. -/
abbrev Edit (σ : Type) := ReaderT Mode (ExceptT Condition (StateT σ (StateM (List Condition))))

namespace Edit

variable {σ α : Type}

/-- Raises a condition; the value is left alone. -/
def raise (condition : Condition) : Edit σ Unit :=
  fun mode => ExceptT.mk (StateT.lift ((Report.raise condition).run mode).run)

/-- Runs work in a mode, after earlier conditions, on a value. The outcome comes
with what is left of the value and with all the conditions that are recorded then. -/
def runIn (mode : Mode) (earlier : List Condition) (value : σ) (work : Edit σ α) :
    (Except Condition α × σ) × List Condition :=
  ((work.run mode).run.run value).run earlier

/-- Works on a value that nothing else holds, so that it is lost if the work ends
with a condition. -/
def on (work : Edit σ Unit) (value : σ) : Report σ :=
  fun mode => ExceptT.mk do
    let (outcome, left) ← (work.run mode).run.run value
    return outcome.map fun _ => left

variable (mode : Mode) (earlier : List Condition) (value : σ)

@[simp] theorem runIn_get_bind (next : σ → Edit σ α) :
    runIn mode earlier value (get >>= next) = runIn mode earlier value (next value) := rfl

@[simp] theorem runIn_modify (f : σ → σ) :
    runIn mode earlier value (modify f) = ((.ok (), f value), earlier) := rfl

@[simp] theorem runIn_strict_raise (condition : Condition) :
    runIn .strict earlier value (raise condition) = ((.error condition, value), earlier) := rfl

@[simp] theorem runIn_lenient_raise (condition : Condition) :
    runIn .lenient earlier value (raise condition) =
      ((.ok (), value), earlier ++ [condition]) := rfl

theorem runIn_on (work : Edit σ Unit) :
    Report.runIn mode earlier (work.on value) =
      match runIn mode earlier value work with
      | ((outcome, left), later) => (outcome.map fun _ => left, later) := rfl

end Edit

end TenderSearch
