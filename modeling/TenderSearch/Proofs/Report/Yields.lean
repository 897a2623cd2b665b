import TenderSearch.Condition

/-!
# What work yields

Work that is put together from values, raises and binds has one value and one
list of conditions, whatever the mode. Lenient work ends with the value and
records the conditions; strict work ends with the first of them.
-/

namespace TenderSearch

namespace Report

variable {α β : Type}

/-- How strict work ends that has a value and some conditions to raise. -/
def strictEnd (a : α) : List Condition → Except Condition α
  | [] => .ok a
  | first :: _ => .error first

/-- Work that raises some conditions and has a value: lenient work records all
of them after the earlier ones, strict work records none and stops at the first. -/
structure Yields (work : Report α) (a : α) (issues : List Condition) : Prop where
  lenient : ∀ earlier, runIn .lenient earlier work = (.ok a, earlier ++ issues)
  strict : ∀ earlier, runIn .strict earlier work = (strictEnd a issues, earlier)

namespace Yields

theorem pure (a : α) : Yields (Pure.pure a) a [] where
  lenient earlier := by simp
  strict _ := rfl

theorem raise (condition : Condition) : Yields (Report.raise condition) () [condition] where
  lenient _ := rfl
  strict _ := rfl

theorem bind {work : Report α} {next : α → Report β} {a : α} {b : β}
    {issues later : List Condition} (hwork : Yields work a issues)
    (hnext : Yields (next a) b later) : Yields (work >>= next) b (issues ++ later) where
  lenient earlier := by
    rw [runIn_bind, hwork.lenient]
    simp only [hnext.lenient, List.append_assoc]
  strict earlier := by
    rw [runIn_bind, hwork.strict]
    -- only strict work without conditions goes on with `next`
    cases issues with
    | nil => simp only [strictEnd, List.nil_append, hnext.strict]
    | cons first rest => rfl

/-- A raise in front of work puts its condition before the others. -/
theorem raise_bind {condition : Condition} {next : Unit → Report β} {b : β}
    {later : List Condition} (hnext : Yields (next ()) b later) :
    Yields (Report.raise condition >>= next) b (condition :: later) :=
  (raise condition).bind hnext

/-- A value that is made from what work yields raises nothing more. -/
theorem bind_pure {work : Report α} {a : α} {issues : List Condition} (f : α → β)
    (hwork : Yields work a issues) :
    Yields (work >>= fun a => Pure.pure (f a)) (f a) issues := by
  have hbind : Yields (work >>= fun a => Pure.pure (f a)) (f a) (issues ++ []) :=
    hwork.bind (pure (f a))
  rwa [List.append_nil] at hbind

/-- Work that raises the same conditions as work that succeeds succeeds as well,
and has recorded the same then. -/
theorem run_eq_ok {work : Report α} {other : Report β} {a : α} {b : β}
    {issues : List Condition} (hwork : Yields work a issues) (hother : Yields other b issues)
    {mode : Mode} {earlier later : List Condition} {value : α}
    (hrun : runIn mode earlier work = (.ok value, later)) :
    value = a ∧ runIn mode earlier other = (.ok b, later) := by
  cases mode with
  | lenient =>
      rw [hwork.lenient, Prod.mk.injEq, Except.ok.injEq] at hrun
      obtain ⟨rfl, rfl⟩ := hrun
      exact ⟨rfl, hother.lenient earlier⟩
  | strict =>
      rw [hwork.strict, Prod.mk.injEq] at hrun
      obtain ⟨hend, rfl⟩ := hrun
      -- strict work only has a value if there is nothing to raise
      cases issues with
      | nil => exact ⟨(Except.ok.inj hend).symm, hother.strict earlier⟩
      | cons first rest => cases hend

/-- What is recorded after work was recorded before it or raised by it. -/
theorem mem_of_run {work : Report α} {a : α} {issues : List Condition}
    (hwork : Yields work a issues) {mode : Mode} {earlier later : List Condition}
    {outcome : Except Condition α} (hrun : runIn mode earlier work = (outcome, later))
    {condition : Condition} (hmem : condition ∈ later) :
    condition ∈ earlier ∨ condition ∈ issues := by
  cases mode with
  | lenient =>
      rw [hwork.lenient, Prod.mk.injEq] at hrun
      obtain ⟨-, rfl⟩ := hrun
      exact List.mem_append.mp hmem
  | strict =>
      rw [hwork.strict, Prod.mk.injEq] at hrun
      obtain ⟨-, rfl⟩ := hrun
      exact .inl hmem

end Yields

end Report

end TenderSearch
