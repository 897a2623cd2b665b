import TenderSearch.Proofs.Search.Outcome

/-!
# The parts of a body do not interfere

Date clauses decide the sort order and nothing else, the other clauses decide the
query and the conditions that are raised, and the aggregations stand for
themselves. Where no date clause sorts, the sort order that is asked for does, and
where none is asked for, the one of the setup. All this is settled in one pass over
the clauses.
-/

namespace TenderSearch

open Report

namespace Search

/-- The clauses that sort. -/
def dates (filters : List Clause) : List Clause :=
  filters.filter fun clause => clause.kind = .date

/-- The field and the direction of the sort order that a search asks for. -/
def Requests (search : Search) (field : String) (ascending : Bool) : Prop :=
  search.sort = some { field := some field, ascending } ∧ field ≠ ""

def direction (ascending : Bool) : Json :=
  .str (if ascending then "asc" else "desc")

/-- What a search is sorted by: always one field. -/
inductive SortedBy (setup : Setup) (search : Search) : Json → Prop where
  /-- The last date clause. -/
  | date (earlier : List Clause) (clause : Clause) (later : List Clause)
      (hfilters : search.filters = earlier ++ clause :: later) (hkind : clause.kind = .date)
      (hlast : ∀ other ∈ later, other.kind ≠ .date) :
      SortedBy setup search (.obj [(clause.field, .obj [("order", direction false)])])
  /-- The field that is asked for, outside of all nested scopes. -/
  | requested (field : String) (ascending : Bool) (hdates : ∀ clause ∈ search.filters,
      clause.kind ≠ .date) (hrequest : search.Requests field ascending)
      (hscope : setup.scopes.resolve field = none) :
      SortedBy setup search (.obj [(field, .obj [("order", direction ascending)])])
  /-- The field that is asked for, in a nested scope. -/
  | nested (field : String) (ascending : Bool) (scope : String)
      (hdates : ∀ clause ∈ search.filters, clause.kind ≠ .date)
      (hrequest : search.Requests field ascending)
      (hscope : setup.scopes.resolve field = some scope) :
      SortedBy setup search (.obj [(field, .obj [("nested_path", .str scope),
        ("order", direction ascending)])])
  /-- The field of the setup. -/
  | standard (hdates : ∀ clause ∈ search.filters, clause.kind ≠ .date)
      (hrequest : ∀ field ascending, ¬ search.Requests field ascending) :
      SortedBy setup search (.obj [(setup.defaultSortField, .obj [("order", direction false)])])

/-! ## One pass over the clauses -/

/-- One pass over the clauses, with a sort order and fragments to start from. A date
clause takes the place of the sort order, and the fragment of any other clause is
put behind the fragments. -/
def pass (scopes : ScopeList) (sort : Json) (fragments : List Json) :
    List Clause → Report (Json × List Json)
  | [] => return (sort, fragments)
  | clause :: rest =>
      if clause.kind = .date then pass scopes (sortOn clause.field false none) fragments rest
      else do
        match ← clause.compile scopes with
        | some fragment => pass scopes sort (fragments ++ [fragment]) rest
        | none => pass scopes sort fragments rest

/-- The sort order after clauses, of which the last date clause counts. -/
def sortAfter (sort : Json) (filters : List Clause) : Json :=
  match dateField? filters with
  | some field => sortOn field false none
  | none => sort

theorem sortAfter_cons_of_date {clause : Clause} (hkind : clause.kind = .date) (sort : Json)
    (rest : List Clause) :
    sortAfter sort (clause :: rest) = sortAfter (sortOn clause.field false none) rest := by
  unfold sortAfter dateField?
  rw [List.filter_cons_of_pos (by simpa using hkind), List.getLast?_cons]
  cases (rest.filter fun clause => clause.kind = .date).getLast? <;> rfl

theorem sortAfter_cons_of_ne {clause : Clause} (hkind : clause.kind ≠ .date) (sort : Json)
    (rest : List Clause) : sortAfter sort (clause :: rest) = sortAfter sort rest := by
  unfold sortAfter dateField?
  rw [List.filter_cons_of_neg (by simpa using hkind)]

theorem pass_eq (scopes : ScopeList) (sort : Json) (fragments : List Json)
    (filters : List Clause) :
    pass scopes sort fragments filters = do
      let later ← compileFilters scopes filters
      return (sortAfter sort filters, fragments ++ later) := by
  induction filters generalizing sort fragments with
  | nil =>
      simp only [pass, compileFilters, pure_bind, List.append_nil]
      rfl
  | cons clause rest ih =>
      unfold pass compileFilters
      by_cases hkind : clause.kind = .date
      · rw [if_pos hkind, if_pos hkind, ih, sortAfter_cons_of_date hkind]
      · rw [if_neg hkind, if_neg hkind, sortAfter_cons_of_ne hkind]
        simp only [bind_assoc, pure_bind]
        apply bind_congr
        intro fragment
        cases fragment with
        | none => simp [ih]
        | some fragment => simp [ih]

/-- A body is assembled in one pass over the clauses, which starts from the sort
order that is asked for and ends early with a condition in strict work. -/
theorem body_eq_pass (setup : Setup) (search : Search) :
    search.body setup = do
      let (sort, fragments) ←
        pass setup.scopes (requestedSort setup search.sort) [] search.filters
      let parts := [("query", queryOf fragments), ("sort", sort)]
      return .obj (match aggregationsBody? setup search.aggregations with
        | some aggregations => ("aggregations", aggregations) :: parts
        | none => parts) := by
  rw [pass_eq, bind_assoc]
  simp only [pure_bind, List.nil_append]
  rfl

/-! ## The parts of assembled bodies -/

@[simp] theorem assembled_sort (setup : Setup) (search : Search) (fragments : List Json) :
    (search.assembled setup fragments).get? "sort" = some (sortBody setup search) := by
  unfold assembled
  cases aggregationsBody? setup search.aggregations <;> rfl

@[simp] theorem assembled_aggregations (setup : Setup) (search : Search)
    (fragments : List Json) :
    (search.assembled setup fragments).get? "aggregations" =
      aggregationsBody? setup search.aggregations := by
  unfold assembled
  cases aggregationsBody? setup search.aggregations <;> rfl

/-- A body that is made, in whatever mode, is assembled from the fragments. -/
theorem eq_assembled_of_run {setup : Setup} {search : Search} {mode : Mode}
    {earlier later : List Condition} {body : Json}
    (hrun : runIn mode earlier (search.body setup) = (.ok body, later)) :
    body = search.assembled setup (fragments setup.scopes search.filters) :=
  ((search.yields_body setup).run_eq_ok (search.yields_body setup) hrun).1

theorem isSome_aggregationsBody?_iff (setup : Setup) (aggregations : Option (List Aggregation)) :
    (aggregationsBody? setup aggregations).isSome ↔
      ∃ asked, aggregations = some asked ∧ asked ≠ [] := by
  unfold aggregationsBody?
  split
  next first rest => exact ⟨fun _ => ⟨_, rfl, List.cons_ne_nil first rest⟩, fun _ => rfl⟩
  next hnone =>
    refine ⟨fun hsome => (nomatch hsome), ?_⟩
    rintro ⟨asked, rfl, hne⟩
    obtain ⟨first, rest, rfl⟩ := List.exists_cons_of_ne_nil hne
    exact absurd rfl (hnone first rest)

/-! ## What a body is sorted by -/

theorem sortBody_congr {search other : Search} (hsort : search.sort = other.sort)
    (hdates : dates search.filters = dates other.filters) (setup : Setup) :
    sortBody setup search = sortBody setup other := by
  unfold dates at hdates
  unfold sortBody dateField?
  rw [hdates, hsort]

/-- The clause that decides the sort order is a date clause without a later one. -/
theorem exists_last_date {filters : List Clause} {field : String}
    (hfield : dateField? filters = some field) :
    ∃ earlier clause later, filters = earlier ++ clause :: later ∧ clause.kind = .date ∧
      (∀ other ∈ later, other.kind ≠ .date) ∧ clause.field = field := by
  obtain ⟨clause, hlast, rfl⟩ := Option.map_eq_some_iff.mp hfield
  obtain ⟨before, hdates⟩ := List.getLast?_eq_some_iff.mp hlast
  obtain ⟨front, back, rfl, -, hback⟩ := List.filter_eq_append_iff.mp hdates
  obtain ⟨middle, later, rfl, -, hkind, hlater⟩ := List.filter_eq_cons_iff.mp hback
  refine ⟨front ++ middle, clause, later, (List.append_assoc _ _ _).symm, by simpa using hkind,
    ?_, rfl⟩
  intro other hother
  simpa using List.filter_eq_nil_iff.mp hlater other hother

theorem forall_kind_ne_date {filters : List Clause} (hfield : dateField? filters = none) :
    ∀ clause ∈ filters, clause.kind ≠ .date := by
  intro clause hclause
  have hdates := List.getLast?_eq_none_iff.mp (Option.map_eq_none_iff.mp hfield)
  simpa using List.filter_eq_nil_iff.mp hdates clause hclause

theorem sortedBy_requestedSort {setup : Setup} {search : Search}
    (hdates : ∀ clause ∈ search.filters, clause.kind ≠ .date) :
    SortedBy setup search (requestedSort setup search.sort) := by
  unfold requestedSort
  split
  next field ascending hsort =>
    split
    next hempty =>
      apply SortedBy.standard hdates
      rintro field' ascending' ⟨hsort', hne⟩
      rw [hsort] at hsort'
      cases hsort'
      exact hne hempty
    next hne =>
      unfold sortOn
      cases hscope : setup.scopes.resolve field with
      | none => exact SortedBy.requested field ascending hdates ⟨hsort, hne⟩ hscope
      | some scope => exact SortedBy.nested field ascending scope hdates ⟨hsort, hne⟩ hscope
  next hnone =>
    apply SortedBy.standard hdates
    rintro field ascending ⟨hsort, -⟩
    exact hnone field ascending hsort

theorem sortedBy_sortBody (setup : Setup) (search : Search) :
    SortedBy setup search (sortBody setup search) := by
  unfold sortBody
  cases hfield : dateField? search.filters with
  | none => exact sortedBy_requestedSort (forall_kind_ne_date hfield)
  | some field =>
      obtain ⟨earlier, clause, later, hfilters, hkind, hlast, rfl⟩ := exists_last_date hfield
      exact SortedBy.date earlier clause later hfilters hkind hlast

end Search

open Search in
/-- The parts of bodies do not interfere, in whatever modes they are made. The sort
order is settled by the date clauses and the sort option, the query and the raised
conditions by the other clauses, and the map of aggregations, which is there if and
only if some are asked for, by the aggregations. What is sorted by is the last date
clause or else the sort option or else the setup. -/
theorem body_parts_do_not_interfere (setup : Setup) (search other : Search) :
    (search.sort = other.sort → dates search.filters = dates other.filters →
      ∀ mode mode' earlier earlier' later later' body body',
        runIn mode earlier (search.body setup) = (.ok body, later) →
        runIn mode' earlier' (other.body setup) = (.ok body', later') →
        body.get? "sort" = body'.get? "sort") ∧
    (conditions search.filters = conditions other.filters →
      ∀ mode earlier,
        (runIn mode earlier (search.body setup)).2 = (runIn mode earlier (other.body setup)).2 ∧
        (runIn mode earlier (search.body setup)).1.map (Json.get? "query") =
          (runIn mode earlier (other.body setup)).1.map (Json.get? "query")) ∧
    (search.aggregations = other.aggregations →
      ∀ mode mode' earlier earlier' later later' body body',
        runIn mode earlier (search.body setup) = (.ok body, later) →
        runIn mode' earlier' (other.body setup) = (.ok body', later') →
        body.get? "aggregations" = body'.get? "aggregations") ∧
    (∀ mode earlier later body, runIn mode earlier (search.body setup) = (.ok body, later) →
      ((body.get? "aggregations").isSome ↔
        ∃ asked, search.aggregations = some asked ∧ asked ≠ []) ∧
      ∃ sort, body.get? "sort" = some sort ∧ SortedBy setup search sort) ∧
    ∀ earlier, ∃ body later, runIn .lenient earlier (search.body setup) = (.ok body, later) := by
  refine ⟨?_, ?_, ?_, ?_, ?_⟩
  · intro hsort hdates mode mode' earlier earlier' later later' body body' hrun hrun'
    rw [eq_assembled_of_run hrun, eq_assembled_of_run hrun', assembled_sort, assembled_sort,
      sortBody_congr hsort hdates setup]
  · intro hconditions mode earlier
    have hfragments : fragments setup.scopes search.filters =
        fragments setup.scopes other.filters := by
      unfold fragments
      rw [hconditions]
    have hfaults : faults search.filters = faults other.filters := by
      unfold faults
      rw [hconditions]
    have hbody := search.yields_body setup
    have hother := other.yields_body setup
    rw [hfragments, hfaults] at hbody
    cases mode with
    | lenient =>
        rw [hbody.lenient, hother.lenient]
        simp only [Except.map, assembled_query, and_self]
    | strict =>
        rw [hbody.strict, hother.strict]
        cases faults other.filters with
        | nil => simp only [strictEnd, Except.map, assembled_query, and_self]
        | cons first rest => exact ⟨rfl, rfl⟩
  · intro haggregations mode mode' earlier earlier' later later' body body' hrun hrun'
    rw [eq_assembled_of_run hrun, eq_assembled_of_run hrun', assembled_aggregations,
      assembled_aggregations, haggregations]
  · intro mode earlier later body hrun
    rw [eq_assembled_of_run hrun, assembled_aggregations, assembled_sort]
    exact ⟨isSome_aggregationsBody?_iff setup search.aggregations, _, rfl,
      sortedBy_sortBody setup search⟩
  · intro earlier
    exact ⟨_, _, (search.yields_body setup).lenient earlier⟩

namespace Search

/-- A search with date clauses around a faulty clause. -/
def lotSearch : Search :=
  { sort := some { field := some "lots.value", ascending := true },
    filters := [.plain .date "published" [], .plain (.unsupported "geo") "place" [],
      .plain .date "modified" []],
    aggregations := some [.on .terms "country"] }

/-- The same date clauses in front of another clause. -/
def titleSearch : Search :=
  { lotSearch with
    filters := [.plain .date "published" [], .plain .date "modified" [],
      .plain .term "title" [.str "road"]],
    aggregations := none }

/-- The same faulty clause without date clauses and without a sort option. -/
def undatedSearch : Search :=
  { lotSearch with sort := none, filters := [.plain (.unsupported "geo") "place" []] }

end Search

open Search in
/-- The search shares its sort order with one search, and its faulty clause and its
aggregations with another one. -/
theorem body_parts_do_not_interfere_lots :
    (lotSearch.sort = titleSearch.sort ∧ dates lotSearch.filters = dates titleSearch.filters ∧
      ∃ body body',
        runIn .lenient [] (lotSearch.body .standard) = (.ok body, [.unsupportedClause "geo"]) ∧
        runIn .strict [] (titleSearch.body .standard) = (.ok body', []) ∧
        body.get? "sort" = body'.get? "sort") ∧
    (conditions lotSearch.filters = conditions undatedSearch.filters ∧
      (runIn .strict [] (lotSearch.body .standard)).1.map (Json.get? "query") =
        (runIn .strict [] (undatedSearch.body .standard)).1.map (Json.get? "query")) ∧
    (lotSearch.aggregations = undatedSearch.aggregations ∧
      ∃ body body',
        runIn .lenient [] (lotSearch.body .standard) = (.ok body, [.unsupportedClause "geo"]) ∧
        runIn .lenient [] (undatedSearch.body .standard) =
          (.ok body', [.unsupportedClause "geo"]) ∧
        body.get? "aggregations" = body'.get? "aggregations" ∧
        ∃ sort, body.get? "sort" = some sort ∧ SortedBy .standard lotSearch sort) := by
  obtain ⟨hsort, -, -, -, -⟩ := body_parts_do_not_interfere .standard lotSearch titleSearch
  obtain ⟨-, hquery, haggregations, hparts, -⟩ :=
    body_parts_do_not_interfere .standard lotSearch undatedSearch
  refine ⟨⟨rfl, rfl, _, _, rfl, rfl, ?_⟩, ⟨rfl, ?_⟩, rfl, _, _, rfl, rfl, ?_, ?_⟩
  · exact hsort rfl rfl .lenient .strict [] [] _ _ _ _ rfl rfl
  · exact (hquery rfl .strict []).2
  · exact haggregations rfl .lenient .lenient [] [] _ _ _ _ rfl rfl
  · exact (hparts .lenient [] _ _ rfl).2

end TenderSearch
