import Mathlib.Data.List.Basic
import TenderSearch.Clause.Compile
import TenderSearch.Proofs.Report.Yields

/-!
# What compiling clauses yields

A clause stands for tests on its field, of which a document has to pass one.
Compiled alone it yields one fragment for its tests, none if it has none, and a
faulty clause raises exactly one condition. Compiling clauses together only
collects both.
-/

namespace TenderSearch.Clause

open Report

/-- A condition on the field of a clause. -/
structure Test where
  kind : String
  body : Json

def Test.fragment (field : String) (test : Test) : Json :=
  Fragment.leaf test.kind field test.body

def comparisonTest? (number : Json) : Comparison → Option Test
  | .equal => some ⟨"term", number⟩
  | .less => some ⟨"range", .obj [("lt", number)]⟩
  | .greater => some ⟨"range", .obj [("gt", number)]⟩
  | .other _ => none

def valueTest? (clause : Clause) : Option Test := do
  let number ← clause.values.head?.bind number?
  clause.comparison.bind (comparisonTest? (numberToJson number))

def yearsTest? (clause : Clause) : Option Test :=
  (yearBounds? clause.values).map fun (start, stop) =>
    ⟨"range", .obj [("gte", Json.ofInt start), ("lt", Json.ofInt stop)]⟩

/-- The tests of which a document has to pass one. -/
def tests (clause : Clause) : List Test :=
  match clause.kind with
  | .select => [⟨"terms", .arr clause.values⟩]
  | .term => clause.values.map (⟨"term", ·⟩)
  | .matches => clause.values.map (⟨"match", ·⟩)
  | .text => clause.values.map (⟨"match_phrase_prefix", ·⟩)
  | .value => clause.valueTest?.toList
  | .range => clause.yearsTest?.toList
  | .date => []
  | .unsupported _ => []

/-- The fragment for a list of tests. One test needs no disjunction, but phrases
get one always. -/
def testsFragment? (clause : Clause) : List Test → Option Json
  | [] => none
  | [test] =>
      if clause.kind = .text then some (Fragment.disjunction [test.fragment clause.field])
      else some (test.fragment clause.field)
  | tests => some (Fragment.disjunction (tests.map (Test.fragment clause.field)))

/-- What a clause compiles to alone. -/
def part? (clause : Clause) : Option Json :=
  clause.testsFragment? clause.tests

def fault? (clause : Clause) : Option Condition :=
  match clause.kind with
  | .value =>
      match clause.values.head?.bind number? with
      | none => some (.invalidNumber clause.field (describe clause.values.head?))
      | some _ =>
          match clause.valueTest? with
          | none =>
              some (.unsupportedComparison clause.field (describeComparison clause.comparison))
          | some _ => none
  | .range =>
      match clause.yearsTest? with
      | none => some (.invalidNumber clause.field (Json.render (.arr clause.values)))
      | some _ => none
  | .unsupported name => some (.unsupportedClause name)
  | _ => none

/-- A clause and the clauses joined to it. -/
def group (clause : Clause) : List Clause :=
  clause :: clause.joined

/-- The conditions of the faulty clauses of a group. -/
def faults (clause : Clause) : List Condition :=
  clause.group.filterMap fault?

/-- What a clause compiles to with the clauses joined to it. -/
def fragment? (scopes : ScopeList) (clause : Clause) : Option Json :=
  combine (scopes.resolve clause.field) (clause.group.filterMap part?)

/-- A part is the fragment of one test, or a disjunction over all of them. -/
theorem test_or_disjunction_of_part? {clause : Clause} {part : Json}
    (hpart : clause.part? = some part) :
    (∃ test ∈ clause.tests, part = test.fragment clause.field) ∨
      part = Fragment.disjunction (clause.tests.map (Test.fragment clause.field)) := by
  unfold part? testsFragment? at hpart
  split at hpart
  next => cases hpart
  next test htests =>
    rw [htests]
    split at hpart
    next =>
      cases hpart
      exact .inr rfl
    next =>
      cases hpart
      exact .inl ⟨test, List.mem_singleton_self test, rfl⟩
  next =>
    cases hpart
    exact .inr rfl

theorem comparisonFragment?_eq (field : String) (number : Json) (comparison : Comparison) :
    comparisonFragment? field number comparison =
      (comparisonTest? number comparison).map (Test.fragment field) := by
  cases comparison <;> rfl

theorem map_fragment (kind field : String) (values : List Json) :
    (values.map fun body => (⟨kind, body⟩ : Test)).map (Test.fragment field) =
      values.map (Fragment.leaf kind field) := by
  rw [List.map_map]
  rfl

theorem anyOf_eq (clause : Clause) (hkind : clause.kind ≠ .text) (kind : String)
    (values : List Json) :
    anyOf kind clause.field values = clause.testsFragment? (values.map (⟨kind, ·⟩)) := by
  match values with
  | [] => rfl
  | [value] => simp [anyOf, testsFragment?, hkind, Test.fragment]
  | first :: second :: rest =>
      exact congrArg (fun fragments => some (Fragment.disjunction fragments))
        (map_fragment kind clause.field (first :: second :: rest)).symm

theorem phrases_eq (clause : Clause) (hkind : clause.kind = .text) :
    phrases clause.field clause.values =
      clause.testsFragment? (clause.values.map (⟨"match_phrase_prefix", ·⟩)) := by
  match clause.values with
  | [] => rfl
  | [value] => simp [phrases, testsFragment?, hkind, Test.fragment]
  | first :: second :: rest =>
      exact congrArg (fun fragments => some (Fragment.disjunction fragments))
        (map_fragment "match_phrase_prefix" clause.field (first :: second :: rest)).symm

/-- Outside of phrases a single test compiles to its own fragment. -/
theorem testsFragment?_toList (clause : Clause) (hkind : clause.kind ≠ .text)
    (test? : Option Test) :
    clause.testsFragment? test?.toList = test?.map (Test.fragment clause.field) := by
  cases test? with
  | none => rfl
  | some test => simp [testsFragment?, hkind]

/-- A clause that is not faulty yields its part without more ado. -/
theorem yields_part {clause : Clause} {part? : Option Json} (hpart : clause.part? = part?)
    (hfault : clause.fault? = none) :
    Yields (pure part?) clause.part? clause.fault?.toList := by
  rw [hpart, hfault]
  exact Yields.pure part?

/-- A faulty clause raises its condition and has no part. -/
theorem yields_fault {clause : Clause} {condition : Condition} (hpart : clause.part? = none)
    (hfault : clause.fault? = some condition) :
    Yields (do Report.raise condition; return none) clause.part? clause.fault?.toList := by
  rw [hpart, hfault]
  exact (Yields.pure none).raise_bind

theorem part?_of_value {clause : Clause} (hkind : clause.kind = .value) :
    clause.part? = clause.valueTest?.map (Test.fragment clause.field) := by
  rw [part?, tests, hkind]
  exact testsFragment?_toList clause (by simp [hkind]) _

theorem part?_of_range {clause : Clause} (hkind : clause.kind = .range) :
    clause.part? = clause.yearsTest?.map (Test.fragment clause.field) := by
  rw [part?, tests, hkind]
  exact testsFragment?_toList clause (by simp [hkind]) _

theorem yields_compileComparison (clause : Clause) (hkind : clause.kind = .value) :
    Yields clause.compileComparison clause.part? clause.fault?.toList := by
  have hpart := part?_of_value hkind
  unfold compileComparison
  split
  next hnumber =>
    have htest : clause.valueTest? = none := by simp [valueTest?, hnumber]
    rw [htest] at hpart
    exact yields_fault hpart (by simp [fault?, hkind, hnumber])
  next number hnumber =>
    have hfragment : clause.comparison.bind
        (comparisonFragment? clause.field (numberToJson number)) =
          clause.valueTest?.map (Test.fragment clause.field) := by
      cases hcomparison : clause.comparison with
      | none => simp [valueTest?, hcomparison]
      | some comparison =>
          simp [valueTest?, hnumber, hcomparison, comparisonFragment?_eq]
    rw [hfragment]
    -- a comparison that is missing and one that is not known fail alike
    cases hvalue : clause.valueTest? with
    | some test =>
        rw [hvalue] at hpart
        exact yields_part hpart (by simp [fault?, hkind, hnumber, hvalue])
    | none =>
        rw [hvalue] at hpart
        exact yields_fault hpart (by simp [fault?, hkind, hnumber, hvalue])

theorem yields_compileYears (clause : Clause) (hkind : clause.kind = .range) :
    Yields clause.compileYears clause.part? clause.fault?.toList := by
  have hpart := part?_of_range hkind
  unfold compileYears
  split
  next hbounds =>
    have htest : clause.yearsTest? = none := by simp [yearsTest?, hbounds]
    rw [htest] at hpart
    exact yields_fault hpart (by simp [fault?, hkind, htest])
  next start stop hbounds =>
    have htest : clause.yearsTest? = some ⟨"range",
        .obj [("gte", Json.ofInt start), ("lt", Json.ofInt stop)]⟩ := by
      simp [yearsTest?, hbounds]
    rw [htest] at hpart
    exact yields_part hpart (by simp [fault?, hkind, htest])

/-- Compiled alone, a clause yields its part and raises at most one condition. -/
theorem yields_compileAlone (clause : Clause) :
    Yields clause.compileAlone clause.part? clause.fault?.toList := by
  unfold compileAlone
  split
  next hkind =>
    have hpart : clause.part? = some (Fragment.leaf "terms" clause.field (.arr clause.values)) := by
      simp [part?, tests, hkind, testsFragment?, Test.fragment]
    exact yields_part hpart (by simp [fault?, hkind])
  next hkind =>
    refine yields_part ?_ (by simp [fault?, hkind])
    rw [part?, tests, hkind, anyOf_eq clause (by simp [hkind])]
  next hkind =>
    refine yields_part ?_ (by simp [fault?, hkind])
    rw [part?, tests, hkind, anyOf_eq clause (by simp [hkind])]
  next hkind =>
    refine yields_part ?_ (by simp [fault?, hkind])
    rw [part?, tests, hkind, phrases_eq clause hkind]
  next hkind => exact yields_compileComparison clause hkind
  next hkind => exact yields_compileYears clause hkind
  next hkind =>
    have hpart : clause.part? = none := by simp [part?, tests, hkind, testsFragment?]
    exact yields_part hpart (by simp [fault?, hkind])
  next name hkind =>
    have hpart : clause.part? = none := by simp [part?, tests, hkind, testsFragment?]
    exact yields_fault hpart (by simp [fault?, hkind])

theorem yields_compileParts (clauses : List Clause) :
    Yields (compileParts clauses) (clauses.filterMap part?) (clauses.filterMap fault?) := by
  induction clauses with
  | nil => exact Yields.pure []
  | cons clause rest ih =>
      rw [List.filterMap_eq_flatMap_toList, List.filterMap_eq_flatMap_toList] at ih ⊢
      exact clause.yields_compileAlone.bind
        (ih.bind_pure fun parts => clause.part?.toList ++ parts)

theorem yields_compile (scopes : ScopeList) (clause : Clause) :
    Yields (clause.compile scopes) (clause.fragment? scopes) clause.faults :=
  (yields_compileParts clause.group).bind_pure (combine (scopes.resolve clause.field))

end TenderSearch.Clause
