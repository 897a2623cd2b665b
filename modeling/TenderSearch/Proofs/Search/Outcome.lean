import TenderSearch.Proofs.Clause.Outcome
import TenderSearch.Proofs.Report.Leaves
import TenderSearch.Search.Body

/-!
# What assembling bodies yields

The body of a search is assembled from the fragments of the clauses that are
not date clauses, and every faulty clause among them and among the clauses
joined to them raises its condition, in the order of the clauses.
-/

namespace TenderSearch.Search

open Report

/-- The clauses that filter. -/
def conditions (filters : List Clause) : List Clause :=
  filters.filter fun clause => clause.kind ≠ .date

def fragments (scopes : ScopeList) (filters : List Clause) : List Json :=
  (conditions filters).filterMap (Clause.fragment? scopes)

def faults (filters : List Clause) : List Condition :=
  (conditions filters).flatMap Clause.faults

theorem yields_compileFilters (scopes : ScopeList) (filters : List Clause) :
    Yields (compileFilters scopes filters) (fragments scopes filters) (faults filters) := by
  induction filters with
  | nil => exact Yields.pure []
  | cons clause rest ih =>
      unfold compileFilters fragments faults conditions
      split
      next hdate =>
        rw [List.filter_cons_of_neg (by simpa using hdate)]
        exact ih
      next hdate =>
        -- what the clause compiles to and raises stands before that of the rest
        rw [List.filter_cons_of_pos (by simpa using hdate), List.flatMap_cons,
          List.filterMap_eq_flatMap_toList, List.flatMap_cons,
          ← List.filterMap_eq_flatMap_toList]
        exact (clause.yields_compile scopes).bind
          (ih.bind_pure fun fragments => (clause.fragment? scopes).toList ++ fragments)

theorem yields_body (setup : Setup) (search : Search) :
    Yields (search.body setup)
      (search.assembled setup (fragments setup.scopes search.filters))
      (faults search.filters) :=
  (yields_compileFilters setup.scopes search.filters).bind_pure (search.assembled setup)

@[simp] theorem assembled_query (setup : Setup) (search : Search) (fragments : List Json) :
    (search.assembled setup fragments).get? "query" = some (queryOf fragments) := by
  unfold assembled
  cases aggregationsBody? setup search.aggregations <;> rfl

/-! ## Restricting bodies -/

section Restricting

variable {countryField country : String} {body query : Json}

theorem leaves_restrict_of_no_query (hquery : body.get? "query" = none) :
    (restrict countryField country).Leaves body body
      [.unexpectedQuery "body has no query"] := by
  apply Edit.Leaves.get_bind
  simp only [hquery]
  exact Edit.leaves_raise _ body

theorem leaves_restrict_of_narrow? (hquery : body.get? "query" = some query) {narrowed : Json}
    (hnarrow : narrow? query (Fragment.leaf "term" countryField (.str country)) =
      some narrowed) :
    (restrict countryField country).Leaves body (replace "query" (fun _ => narrowed) body) [] := by
  apply Edit.Leaves.get_bind
  simp only [hquery, hnarrow]
  exact Edit.leaves_modify _ body

/-- A query without a part that matches every document is reported, and the body
stays as it is. -/
theorem leaves_restrict_of_narrow?_eq_none (hquery : body.get? "query" = some query)
    (hnarrow : narrow? query (Fragment.leaf "term" countryField (.str country)) = none) :
    (restrict countryField country).Leaves body body [.unexpectedQuery query.render] := by
  apply Edit.Leaves.get_bind
  simp only [hquery, hnarrow]
  exact Edit.leaves_raise _ body

end Restricting

/-- Restricting a body either makes a new body or raises one condition. -/
theorem exists_leaves_restrict (countryField country : String) (body : Json) :
    ∃ left issues, (restrict countryField country).Leaves body left issues := by
  cases hquery : body.get? "query" with
  | none => exact ⟨_, _, leaves_restrict_of_no_query hquery⟩
  | some query =>
      cases hnarrow : narrow? query (Fragment.leaf "term" countryField (.str country)) with
      | none => exact ⟨_, _, leaves_restrict_of_narrow?_eq_none hquery hnarrow⟩
      | some narrowed => exact ⟨_, _, leaves_restrict_of_narrow? hquery hnarrow⟩

theorem yields_bodyIn (setup : Setup) (country : Option String) (search : Search) :
    ∃ body issues, Yields (search.bodyIn setup country) body issues := by
  obtain ⟨plain, issues, hplain⟩ : ∃ plain issues, Yields (search.body setup) plain issues :=
    ⟨_, _, search.yields_body setup⟩
  cases country with
  | none => exact ⟨plain, issues, hplain.bind_pure id⟩
  | some country =>
      by_cases hempty : country = ""
      · refine ⟨plain, issues, ?_⟩
        simp only [bodyIn, hempty, if_true]
        exact hplain.bind_pure id
      · obtain ⟨restricted, later, hrestrict⟩ :=
          exists_leaves_restrict setup.countryField country plain
        refine ⟨restricted, issues ++ later, ?_⟩
        simp only [bodyIn, hempty, if_false]
        exact hplain.bind hrestrict.on

end TenderSearch.Search
