import TenderSearch.Proofs.Clause.Outcome

/-!
# Faulty clauses

A clause is faulty if its kind is not known, if it has no number to compare
with or no known way to compare, or if it does not name two years. A faulty
clause compiles to nothing, and so does a blank clause on the same field, which
raises nothing either. So a faulty clause may be taken for a blank one.
-/

namespace TenderSearch

def Comparison.isKnown : Comparison → Bool
  | .other _ => false
  | _ => true

namespace Clause

/-! ## What is wrong with a clause -/

/-- Whether the first value stands for a number. -/
def startsWithNumber : List Json → Bool
  | first :: _ => (number? first).isSome
  | [] => false

/-- Whether the first two values name years. -/
def startsWithYears : List Json → Bool
  | start :: stop :: _ =>
      (Calendar.yearStart? start).isSome && (Calendar.yearStart? stop).isSome
  | _ => false

def comparesKnown (clause : Clause) : Bool :=
  clause.comparison.any Comparison.isKnown

def isFaulty (clause : Clause) : Bool :=
  match clause.kind with
  | .unsupported _ => true
  | .value => !(startsWithNumber clause.values && clause.comparesKnown)
  | .range => !startsWithYears clause.values
  | _ => false

/-- A condition reports what is wrong with a clause, by its field or by the name
of its kind. A missing number comes before a missing comparison. -/
inductive Reports (clause : Clause) : Condition → Prop where
  | unsupported {name : String} (hkind : clause.kind = .unsupported name) :
      Reports clause (.unsupportedClause name)
  | number (hkind : clause.kind = .value) (hnumber : startsWithNumber clause.values = false) :
      Reports clause (.invalidNumber clause.field (describe clause.values.head?))
  | comparison (hkind : clause.kind = .value) (hnumber : startsWithNumber clause.values = true)
      (hcomparison : clause.comparesKnown = false) :
      Reports clause
        (.unsupportedComparison clause.field (describeComparison clause.comparison))
  | years (hkind : clause.kind = .range) (hyears : startsWithYears clause.values = false) :
      Reports clause (.invalidNumber clause.field (Json.render (.arr clause.values)))

theorem isSome_bind_number? (values : List Json) :
    (values.head?.bind number?).isSome = startsWithNumber values := by
  cases values <;> rfl

theorem isSome_comparisonTest? (number : Json) (comparison : Comparison) :
    (comparisonTest? number comparison).isSome = comparison.isKnown := by
  cases comparison <;> rfl

theorem isSome_valueTest? (clause : Clause) :
    clause.valueTest?.isSome = (startsWithNumber clause.values && clause.comparesKnown) := by
  rw [← isSome_bind_number?, valueTest?, comparesKnown]
  cases clause.values.head?.bind number? with
  | none => rfl
  | some number =>
      cases clause.comparison with
      | none => rfl
      | some comparison => exact isSome_comparisonTest? _ comparison

theorem isSome_yearsTest? (clause : Clause) :
    clause.yearsTest?.isSome = startsWithYears clause.values := by
  rw [yearsTest?, Option.isSome_map]
  rcases clause.values with _ | ⟨start, _ | ⟨stop, rest⟩⟩
  · rfl
  · rfl
  · simp only [yearBounds?, startsWithYears]
    cases Calendar.yearStart? start with
    | none => rfl
    | some _ => cases Calendar.yearStart? stop <;> rfl

/-- What a faulty clause raises is decided by what is wrong with it. -/
theorem reports_of_fault? {clause : Clause} {condition : Condition}
    (hfault : clause.fault? = some condition) : clause.Reports condition := by
  have hnumber := isSome_bind_number? clause.values
  have hvalue := isSome_valueTest? clause
  have hyears := isSome_yearsTest? clause
  unfold fault? at hfault
  split at hfault
  next hkind =>
    split at hfault
    next hnone =>
      rw [hnone] at hnumber
      cases hfault
      exact .number hkind hnumber.symm
    next number hsome =>
      rw [hsome] at hnumber
      rw [← hnumber] at hvalue
      split at hfault
      next hnone =>
        rw [hnone] at hvalue
        cases hfault
        exact .comparison hkind hnumber.symm hvalue.symm
      next => cases hfault
  next hkind =>
    split at hfault
    next hnone =>
      rw [hnone] at hyears
      cases hfault
      exact .years hkind hyears.symm
    next => cases hfault
  next name hkind =>
    cases hfault
    exact .unsupported hkind
  next => cases hfault

/-- The faulty clauses are those that raise a condition. -/
theorem isSome_fault? (clause : Clause) : clause.fault?.isSome = clause.isFaulty := by
  have hnumber := isSome_bind_number? clause.values
  have hvalue := isSome_valueTest? clause
  have hyears := isSome_yearsTest? clause
  unfold fault? isFaulty
  cases hkind : clause.kind with
  | value =>
      cases hfirst : clause.values.head?.bind number? with
      | none =>
          rw [hfirst] at hnumber
          simp [← hnumber]
      | some number =>
          rw [← hvalue]
          cases clause.valueTest? <;> rfl
  | range =>
      rw [← hyears]
      cases clause.yearsTest? <;> rfl
  | _ => rfl

/-- Every faulty clause of a list is reported once, in the order of the list. -/
theorem forall₂_reports (clauses : List Clause) :
    List.Forall₂ Reports (clauses.filter isFaulty) (clauses.filterMap fault?) := by
  induction clauses with
  | nil => exact .nil
  | cons clause rest ih =>
      have hfaulty := isSome_fault? clause
      cases hfault : clause.fault? with
      | none =>
          rw [hfault] at hfaulty
          rw [List.filterMap_cons_none hfault, List.filter_cons_of_neg (by simp [← hfaulty])]
          exact ih
      | some condition =>
          rw [hfault] at hfaulty
          rw [List.filterMap_cons_some hfault, List.filter_cons_of_pos hfaulty.symm]
          exact .cons (reports_of_fault? hfault) ih

/-! ## Blank clauses -/

/-- A faulty clause becomes one without values, on the same field and with the
same clauses joined to it. -/
def blank (clause : Clause) : Clause :=
  if clause.isFaulty then { plain .term clause.field [] with joined := clause.joined } else clause

/-- A clause that is blanked if it is faulty, and so is every clause joined to it. -/
def blankGroup (clause : Clause) : Clause :=
  { clause.blank with joined := clause.joined.map blank }

theorem part?_eq_none_of_isFaulty {clause : Clause} (hfaulty : clause.isFaulty = true) :
    clause.part? = none := by
  unfold isFaulty at hfaulty
  split at hfaulty
  next name hkind => simp [part?, tests, hkind, testsFragment?]
  next hkind =>
    have hnone : clause.valueTest? = none := by
      rw [← isSome_valueTest?] at hfaulty
      simpa using hfaulty
    rw [part?_of_value hkind, hnone, Option.map_none]
  next hkind =>
    have hnone : clause.yearsTest? = none := by
      rw [← isSome_yearsTest?] at hfaulty
      simpa using hfaulty
    rw [part?_of_range hkind, hnone, Option.map_none]
  next => cases hfaulty

theorem part?_blank (clause : Clause) : clause.blank.part? = clause.part? := by
  unfold blank
  split
  next hfaulty =>
    rw [part?_eq_none_of_isFaulty hfaulty]
    rfl
  next => rfl

theorem fault?_blank (clause : Clause) : clause.blank.fault? = none := by
  unfold blank
  split
  next => rfl
  next hfaulty =>
    rw [← isSome_fault?] at hfaulty
    simpa using hfaulty

theorem blank_field (clause : Clause) : clause.blank.field = clause.field := by
  unfold blank
  split <;> rfl

/-- No clause becomes a date clause, and no date clause becomes another one. -/
theorem blank_kind_eq_date_iff (clause : Clause) :
    clause.blank.kind = .date ↔ clause.kind = .date := by
  unfold blank
  split
  next hfaulty =>
    constructor
    · intro hblank
      cases hblank
    · intro hkind
      rw [isFaulty, hkind] at hfaulty
      cases hfaulty
  next => rfl

/-- The clauses that are joined to a clause decide neither its own part nor its
own fault. -/
theorem group_blankGroup {α : Type} {f : Clause → Option α}
    (hf : ∀ (clause : Clause) (joined : List Clause), f { clause with joined } = f clause)
    (clause : Clause) :
    clause.blankGroup.group.filterMap f = clause.group.filterMap fun part => f part.blank := by
  have hhead : f clause.blankGroup = f clause.blank := hf clause.blank _
  have htail : (clause.joined.map blank).filterMap f =
      clause.joined.filterMap fun part => f part.blank := List.filterMap_map
  unfold group
  rw [List.filterMap_cons, List.filterMap_cons, hhead]
  simp only [blankGroup, htail]

theorem fragment?_blankGroup (scopes : ScopeList) (clause : Clause) :
    clause.blankGroup.fragment? scopes = clause.fragment? scopes := by
  have hfield : clause.blankGroup.field = clause.field := blank_field clause
  have hparts : clause.blankGroup.group.filterMap part? = clause.group.filterMap part? := by
    rw [group_blankGroup (fun _ _ => rfl)]
    simp only [part?_blank]
  rw [fragment?, fragment?, hfield, hparts]

theorem faults_blankGroup (clause : Clause) : clause.blankGroup.faults = [] := by
  rw [faults, group_blankGroup (fun _ _ => rfl)]
  simp only [fault?_blank]
  exact List.filterMap_eq_nil_iff.mpr fun _ _ => rfl

end Clause

end TenderSearch
