import Mathlib.Data.List.Forall2
import TenderSearch.Proofs.Clause.Faults
import TenderSearch.Proofs.Search.Outcome

/-!
# Searches with faulty clauses

Lenient work makes the body that strict work makes of the same search with
blank clauses in the place of the faulty ones. So a faulty clause takes nothing
away but itself: a clause joined to it is still in its scope, and no other clause
is lost or moved.
-/

namespace TenderSearch

open Report

namespace Search

/-- Date clauses do not filter and stay as they are, together with what is joined
to them. -/
def blankFilter (clause : Clause) : Clause :=
  if clause.kind = .date then clause else clause.blankGroup

/-- The search with the faulty clauses among its filters blanked. -/
def blanked (search : Search) : Search :=
  { search with filters := search.filters.map blankFilter }

/-- The faulty clauses among those that filter and those joined to them, a clause
before the ones joined to it. -/
def faultyClauses (filters : List Clause) : List Clause :=
  (conditions filters).flatMap fun clause => clause.group.filter Clause.isFaulty

theorem blankFilter_kind_eq_date_iff (clause : Clause) :
    (blankFilter clause).kind = .date ↔ clause.kind = .date := by
  unfold blankFilter
  split
  next => rfl
  next => exact clause.blank_kind_eq_date_iff

theorem conditions_blanked (search : Search) :
    conditions search.blanked.filters = (conditions search.filters).map Clause.blankGroup := by
  unfold conditions blanked
  rw [List.filter_map]
  simp only [Function.comp_def, ne_eq, blankFilter_kind_eq_date_iff]
  apply List.map_congr_left
  intro clause hclause
  have hdate : clause.kind ≠ .date := by simpa using (List.mem_filter.mp hclause).2
  exact if_neg hdate

theorem fragments_blanked (scopes : ScopeList) (search : Search) :
    fragments scopes search.blanked.filters = fragments scopes search.filters := by
  unfold fragments
  rw [conditions_blanked, List.filterMap_map]
  apply List.filterMap_congr
  intro clause _
  exact clause.fragment?_blankGroup scopes

theorem faults_blanked (search : Search) : faults search.blanked.filters = [] := by
  unfold faults
  rw [conditions_blanked, List.flatMap_map, List.flatMap_eq_nil_iff]
  intro clause _
  exact clause.faults_blankGroup

theorem dateField?_blanked (search : Search) :
    dateField? search.blanked.filters = dateField? search.filters := by
  have hdates : (search.filters.filter fun clause => clause.kind = .date).map blankFilter =
      (search.filters.filter fun clause => clause.kind = .date).map id := by
    apply List.map_congr_left
    intro clause hclause
    have hdate : clause.kind = .date := by simpa using (List.mem_filter.mp hclause).2
    exact if_pos hdate
  unfold dateField? blanked
  rw [List.filter_map]
  simp only [Function.comp_def, blankFilter_kind_eq_date_iff, hdates, List.map_id]

theorem assembled_blanked (setup : Setup) (search : Search) :
    search.blanked.assembled setup (fragments setup.scopes search.blanked.filters) =
      search.assembled setup (fragments setup.scopes search.filters) := by
  have hsort : sortBody setup search.blanked = sortBody setup search := by
    unfold sortBody
    rw [dateField?_blanked]
    rfl
  unfold assembled
  rw [fragments_blanked, hsort]
  rfl

theorem forall₂_reports_faults (filters : List Clause) :
    List.Forall₂ Clause.Reports (faultyClauses filters) (faults filters) := by
  unfold faultyClauses faults
  induction conditions filters with
  | nil => exact .nil
  | cons clause rest ih =>
      rw [List.flatMap_cons, List.flatMap_cons]
      exact List.rel_append (Clause.forall₂_reports clause.group) ih

end Search

/-- For every search, lenient work makes the body that strict work makes of the
search with its faulty clauses blanked, which raises nothing. It records exactly
one condition for each faulty clause, in the order of the clauses. -/
theorem lenient_body_eq_strict_body_blanked (setup : Search.Setup) (search : Search) :
    ∃ body issues,
      (∀ earlier, runIn .lenient earlier (search.body setup) = (.ok body, earlier ++ issues)) ∧
      (∀ earlier, runIn .strict earlier (search.blanked.body setup) = (.ok body, earlier)) ∧
      List.Forall₂ Clause.Reports (Search.faultyClauses search.filters) issues := by
  have hbody := search.yields_body setup
  have hblanked := search.blanked.yields_body setup
  rw [search.assembled_blanked, search.faults_blanked] at hblanked
  exact ⟨_, _, hbody.lenient, hblanked.strict, Search.forall₂_reports_faults search.filters⟩

/-- A clause without a number in a nested scope: the scope stays for the clause
that is joined to it, and the faulty clauses are reported in their order. -/
example :
    runIn .lenient [] (Search.body .standard
      ⟨none, [{ Clause.plain .value "lots.value" [.str "x"] with
          joined := [.plain (.unsupported "geo") "lots.place" [], .plain .term "title" [.str "a"]] },
        .plain .date "modified" []], none⟩) =
      (.ok (.obj [
        ("query", Fragment.filtered Fragment.matchAll (Fragment.nested "lots"
          (Fragment.conjunction [Fragment.leaf "term" "title" (.str "a")]))),
        ("sort", .obj [("modified", .obj [("order", .str "desc")])])]),
        [.invalidNumber "lots.value" "x", .unsupportedClause "geo"]) := rfl

end TenderSearch
