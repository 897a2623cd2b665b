import TenderSearch.Edit
import TenderSearch.Proofs.Report.Yields

/-!
# What work in place leaves

Work in place leaves something of its value behind, whatever the mode and however
it ends. Work that leaves the same in both modes is described by what is left and
by the conditions that it raises.
-/

namespace TenderSearch.Edit

open Report

variable {σ : Type}

/-- Work in place that leaves one value and raises some conditions. Lenient work
records all of them after the earlier ones, strict work records none and ends with
the first. Both leave the same behind. -/
structure Leaves (work : Edit σ Unit) (value left : σ) (issues : List Condition) : Prop where
  lenient : ∀ earlier,
    work.runIn .lenient earlier value = ((.ok (), left), earlier ++ issues)
  strict : ∀ earlier,
    work.runIn .strict earlier value = ((strictEnd () issues, left), earlier)

theorem leaves_modify (f : σ → σ) (value : σ) : Leaves (modify f) value (f value) [] where
  lenient earlier := by simp
  strict earlier := by simp [strictEnd]

theorem leaves_raise (condition : Condition) (value : σ) :
    Leaves (raise condition) value value [condition] where
  lenient earlier := by simp
  strict earlier := by simp [strictEnd]

namespace Leaves

variable {value left : σ} {issues : List Condition}

/-- Work that starts by looking at its value goes on with that value. -/
theorem get_bind {next : σ → Edit σ Unit} (hnext : Leaves (next value) value left issues) :
    Leaves (get >>= next) value left issues where
  lenient earlier := by rw [runIn_get_bind, hnext.lenient]
  strict earlier := by rw [runIn_get_bind, hnext.strict]

/-- On a value that nothing else holds, the work yields what it leaves. -/
theorem on {work : Edit σ Unit} (hwork : Leaves work value left issues) :
    Yields (work.on value) left issues where
  lenient earlier := by
    rw [runIn_on, hwork.lenient]
    rfl
  strict earlier := by
    rw [runIn_on, hwork.strict]
    cases issues with
    | nil => rfl
    | cons first rest => rfl

end Leaves

end TenderSearch.Edit
