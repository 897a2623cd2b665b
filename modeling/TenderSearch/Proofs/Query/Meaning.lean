import TenderSearch.Proofs.Query.Reading
import TenderSearch.Proofs.Search.Outcome

/-!
# What the query of a search means

A clause is met by a document that passes one of its tests. A clause with the
clauses joined to it is met by one document, which is a nested one if the
clause's own field lies in a nested scope. The query of a body holds of exactly
the documents that meet every clause that filters.
-/

namespace TenderSearch

open Query Report

universe u

variable {Doc : Type u} (reading : Interpretation Doc)

namespace Clause

/-- A document passes one of the tests of a clause. -/
def MeetsAlone (clause : Clause) (doc : Doc) : Prop :=
  ∃ test ∈ clause.tests, reading.leaf test.kind clause.field test.body doc

/-- One document meets every clause of a group that has tests. -/
def MeetsTogether (clause : Clause) (doc : Doc) : Prop :=
  ∀ part ∈ clause.group, part.tests ≠ [] → part.MeetsAlone reading doc

/-- A document, or one nested in it if the clause's own field is in a scope,
meets the group of a clause. -/
def Admits (scopes : ScopeList) (clause : Clause) (doc : Doc) : Prop :=
  reading.Within (scopes.resolve clause.field) (clause.MeetsTogether reading) doc

/-- Some clause of the group has a test. -/
def Filters (clause : Clause) : Prop :=
  ∃ part ∈ clause.group, part.tests ≠ []

theorem kind_mem_of_valueTest? {clause : Clause} {test : Test}
    (htest : clause.valueTest? = some test) : test.kind ∈ leafKinds := by
  simp only [valueTest?, Option.bind_eq_bind, Option.bind_eq_some_iff] at htest
  obtain ⟨number, -, comparison, -, htest⟩ := htest
  cases comparison <;> simp only [comparisonTest?, Option.some.injEq, reduceCtorEq] at htest
  all_goals
    subst htest
    simp [leafKinds]

theorem kind_mem_of_yearsTest? {clause : Clause} {test : Test}
    (htest : clause.yearsTest? = some test) : test.kind ∈ leafKinds := by
  simp only [yearsTest?, Option.map_eq_some_iff] at htest
  obtain ⟨bounds, -, rfl⟩ := htest
  simp [leafKinds]

/-- All tests are of kinds that a reading gives a meaning to. -/
theorem kind_mem_leafKinds {clause : Clause} {test : Test} (htest : test ∈ clause.tests) :
    test.kind ∈ leafKinds := by
  cases hkind : clause.kind with
  | select =>
      simp only [tests, hkind, List.mem_singleton] at htest
      subst htest
      simp [leafKinds]
  | term | «matches» | text =>
      simp only [tests, hkind, List.mem_map] at htest
      obtain ⟨value, -, rfl⟩ := htest
      simp [leafKinds]
  | value =>
      simp only [tests, hkind, Option.mem_toList] at htest
      exact kind_mem_of_valueTest? htest
  | range =>
      simp only [tests, hkind, Option.mem_toList] at htest
      exact kind_mem_of_yearsTest? htest
  | date | unsupported => simp [tests, hkind] at htest

theorem part?_eq_none_iff (clause : Clause) : clause.part? = none ↔ clause.tests = [] := by
  unfold part? testsFragment?
  split
  next htests => simp [htests]
  next htests => split <;> simp [htests]
  next hnil _ => simpa using hnil

/-- The part of a clause holds of the documents that pass one of its tests,
whether or not there is a disjunction around a single one. -/
theorem holds_part_iff {clause : Clause} {part : Json} (hpart : clause.part? = some part)
    (doc : Doc) : Holds reading part doc ↔ clause.MeetsAlone reading doc := by
  have hleaf : ∀ test ∈ clause.tests, (Holds reading (test.fragment clause.field) doc ↔
      reading.leaf test.kind clause.field test.body doc) := fun test htest =>
    holds_leaf reading doc (kind_mem_leafKinds htest) clause.field test.body
  have hany : (∃ fragment ∈ clause.tests.map (Test.fragment clause.field),
      Holds reading fragment doc) ↔ clause.MeetsAlone reading doc := by
    simp only [List.mem_map, exists_exists_and_eq_and, MeetsAlone]
    exact exists_congr fun test => and_congr_right (hleaf test)
  unfold part? testsFragment? at hpart
  -- no test, a single one, or a disjunction of several
  split at hpart
  next => cases hpart
  next test htests =>
    rw [htests] at hany
    split at hpart
    all_goals
      cases hpart
      simpa using hany
  next =>
    cases hpart
    rw [holds_disjunction]
    exact hany

theorem holds_parts_iff (clauses : List Clause) (doc : Doc) :
    (∀ part ∈ clauses.filterMap part?, Holds reading part doc) ↔
      ∀ clause ∈ clauses, clause.tests ≠ [] → clause.MeetsAlone reading doc := by
  simp only [List.mem_filterMap, forall_exists_index, and_imp]
  constructor
  · intro hall clause hclause htests
    obtain ⟨part, hpart⟩ := Option.ne_none_iff_exists'.mp
      (mt (part?_eq_none_iff clause).mp htests)
    exact (holds_part_iff reading hpart doc).mp (hall part clause hclause hpart)
  · intro hall part clause hclause hpart
    refine (holds_part_iff reading hpart doc).mpr (hall clause hclause ?_)
    intro htests
    rw [(part?_eq_none_iff clause).mpr htests] at hpart
    cases hpart

theorem combine_eq_none_iff (scope : Option String) (parts : List Json) :
    combine scope parts = none ↔ parts = [] := by
  unfold combine
  split <;> simp_all

/-- Combined parts hold together, of a nested document if there is a scope. -/
theorem holds_combine_iff {scope : Option String} {parts : List Json} {fragment : Json}
    (hfragment : combine scope parts = some fragment) (doc : Doc) :
    Holds reading fragment doc ↔
      reading.Within scope (fun doc => ∀ part ∈ parts, Holds reading part doc) doc := by
  unfold combine at hfragment
  split at hfragment <;> cases hfragment <;> simp [Interpretation.Within]

theorem fragment?_eq_none_iff (scopes : ScopeList) (clause : Clause) :
    clause.fragment? scopes = none ↔ ¬ clause.Filters := by
  rw [fragment?, combine_eq_none_iff, List.filterMap_eq_nil_iff]
  simp only [part?_eq_none_iff, Filters, not_exists, not_and, not_not]

theorem holds_fragment_iff {scopes : ScopeList} {clause : Clause} {fragment : Json}
    (hfragment : clause.fragment? scopes = some fragment) (doc : Doc) :
    Holds reading fragment doc ↔ clause.Admits reading scopes doc := by
  rw [holds_combine_iff reading hfragment]
  exact reading.within_congr (holds_parts_iff reading clause.group) doc

end Clause

namespace Search

/-- A document meets every clause that filters. -/
def Admits (scopes : ScopeList) (search : Search) (doc : Doc) : Prop :=
  ∀ clause ∈ search.filters, clause.kind ≠ .date → clause.Filters →
    clause.Admits reading scopes doc

theorem holds_queryOf_iff (fragments : List Json) (doc : Doc) :
    Holds reading (queryOf fragments) doc ↔
      ∀ fragment ∈ fragments, Holds reading fragment doc := by
  match fragments with
  | [] => simp [queryOf]
  | [fragment] => simp [queryOf]
  | first :: second :: rest => simp [queryOf]

theorem holds_fragments_iff (scopes : ScopeList) (search : Search) (doc : Doc) :
    (∀ fragment ∈ fragments scopes search.filters, Holds reading fragment doc) ↔
      search.Admits reading scopes doc := by
  simp only [fragments, conditions, List.mem_filterMap, List.mem_filter, decide_eq_true_eq,
    forall_exists_index, and_imp]
  constructor
  · intro hall clause hclause hdate hfilters
    obtain ⟨fragment, hfragment⟩ := Option.ne_none_iff_exists'.mp
      (mt (Clause.fragment?_eq_none_iff scopes clause).mp (not_not.mpr hfilters))
    exact (Clause.holds_fragment_iff reading hfragment doc).mp
      (hall fragment clause hclause hdate hfragment)
  · intro hadmits fragment clause hclause hdate hfragment
    refine (Clause.holds_fragment_iff reading hfragment doc).mpr
      (hadmits clause hclause hdate ?_)
    -- a clause that does not filter has no fragment
    by_contra hfilters
    rw [(Clause.fragment?_eq_none_iff scopes clause).mpr hfilters] at hfragment
    cases hfragment

end Search

/-- Lenient work compiles a clause to a part exactly if it has tests, and the
part says that one of them is passed. The query of the body it assembles holds
of exactly the documents that the search admits. -/
theorem body_query_holds_iff_admits (setup : Search.Setup) (search : Search) :
    (∀ clause : Clause, ∃ part? issues,
      runIn .lenient [] clause.compileAlone = (.ok part?, issues) ∧
      (part?.isSome ↔ clause.tests ≠ []) ∧
      ∀ part ∈ part?, ∀ doc, (Holds reading part doc ↔ clause.MeetsAlone reading doc)) ∧
    ∃ body issues query, runIn .lenient [] (search.body setup) = (.ok body, issues) ∧
      body.get? "query" = some query ∧
      ∀ doc, (Holds reading query doc ↔ search.Admits reading setup.scopes doc) := by
  constructor
  · intro clause
    refine ⟨clause.part?, _, clause.yields_compileAlone.lenient [], ?_, ?_⟩
    · rw [Option.isSome_iff_ne_none]
      exact not_congr clause.part?_eq_none_iff
    · intro part hpart
      exact Clause.holds_part_iff reading hpart
  · refine ⟨_, _, _, (search.yields_body setup).lenient [], search.assembled_query setup _, ?_⟩
    intro doc
    rw [Search.holds_queryOf_iff]
    exact search.holds_fragments_iff reading setup.scopes doc

end TenderSearch
