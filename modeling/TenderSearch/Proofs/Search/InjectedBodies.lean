import TenderSearch.Proofs.Query.Meaning
import TenderSearch.Proofs.Tree.InjectionRuns
import TenderSearch.Proofs.Tree.QuietQueries

/-!
# Injections into search bodies

An injection into a search body walks through everything in it, and comes to its
map of aggregations twice: as the map that the body holds, and as an object that
may itself have a field `aggregations`. Neither that nor the query or the sort
order gives it anything more to do, so what it makes of the body is what it makes
of the bare map.
-/

namespace TenderSearch

open Json Report Aggregation TenderSearch.Tree

variable {scope : String}

/-! ## Queries from clauses -/

namespace Clause

/-- No object in the values of a clause has a field `nested`. -/
def ValuesWithoutNested (clause : Clause) : Prop :=
  ∀ value ∈ clause.values, WithoutNested value

theorem withoutNested_numberToJson (number : Binary64) : WithoutNested (numberToJson number) := by
  unfold numberToJson
  split
  next => split <;> exact withoutNested_num _
  next => exact withoutNested_num _

theorem withoutNested_of_valueTest? {clause : Clause} {test : Test}
    (htest : clause.valueTest? = some test) : WithoutNested test.body := by
  simp only [valueTest?, Option.bind_eq_bind, Option.bind_eq_some_iff] at htest
  obtain ⟨number, -, comparison, -, htest⟩ := htest
  have hnumber := withoutNested_numberToJson number
  cases comparison with
  | equal =>
      cases htest
      exact hnumber
  | less | greater =>
      cases htest
      simpa [withoutNested_obj_iff, Table.get?] using hnumber
  | other => cases htest

theorem withoutNested_of_yearsTest? {clause : Clause} {test : Test}
    (htest : clause.yearsTest? = some test) : WithoutNested test.body := by
  simp only [yearsTest?, Option.map_eq_some_iff] at htest
  obtain ⟨bounds, -, rfl⟩ := htest
  simp [withoutNested_obj_iff, Table.get?, Json.ofInt]

/-- What a clause compares with are its values, or numbers. -/
theorem withoutNested_body {clause : Clause} (hclause : clause.ValuesWithoutNested) {test : Test}
    (htest : test ∈ clause.tests) : WithoutNested test.body := by
  cases hkind : clause.kind with
  | select =>
      simp only [tests, hkind, List.mem_singleton] at htest
      subst htest
      exact (withoutNested_arr_iff _).mpr hclause
  | term | «matches» | text =>
      simp only [tests, hkind, List.mem_map] at htest
      obtain ⟨value, hvalue, rfl⟩ := htest
      exact hclause value hvalue
  | value =>
      simp only [tests, hkind, Option.mem_toList] at htest
      exact withoutNested_of_valueTest? htest
  | range =>
      simp only [tests, hkind, Option.mem_toList] at htest
      exact withoutNested_of_yearsTest? htest
  | date | unsupported => simp [tests, hkind] at htest

theorem quiet_test {clause : Clause} (hclause : clause.ValuesWithoutNested) {test : Test}
    (htest : test ∈ clause.tests) : Quiet scope (test.fragment clause.field) := by
  have hkind : test.kind ≠ "aggregations" := by
    intro heq
    have hmem := kind_mem_leafKinds htest
    rw [heq] at hmem
    exact absurd hmem (by decide)
  exact quiet_leaf hkind clause.field (withoutNested_body hclause htest)

theorem quiet_part? {clause : Clause} (hclause : clause.ValuesWithoutNested) {part : Json}
    (hpart : clause.part? = some part) : Quiet scope part := by
  rcases test_or_disjunction_of_part? hpart with ⟨test, htest, rfl⟩ | rfl
  · exact quiet_test hclause htest
  · apply quiet_disjunction
    intro fragment hfragment
    obtain ⟨test, htest, rfl⟩ := List.mem_map.mp hfragment
    exact quiet_test hclause htest

theorem quiet_combine {scope? : Option String} {parts : List Json}
    (hparts : ∀ part ∈ parts, Quiet scope part) {fragment : Json}
    (hfragment : combine scope? parts = some fragment) : Quiet scope fragment := by
  unfold combine at hfragment
  split at hfragment
  next => cases hfragment
  next path _ =>
    cases hfragment
    exact quiet_nested path (quiet_conjunction hparts)
  next =>
    cases hfragment
    exact List.forall_mem_singleton.mp hparts
  next =>
    cases hfragment
    exact quiet_conjunction hparts

theorem quiet_fragment? {scopes : ScopeList} {clause : Clause}
    (hclause : ∀ part ∈ clause.group, part.ValuesWithoutNested) {fragment : Json}
    (hfragment : clause.fragment? scopes = some fragment) : Quiet scope fragment := by
  refine quiet_combine ?_ hfragment
  intro part hpart
  obtain ⟨member, hmember, hpart⟩ := List.mem_filterMap.mp hpart
  exact quiet_part? (hclause member hmember) hpart

end Clause

namespace Search

theorem quiet_queryOf {fragments : List Json}
    (hfragments : ∀ fragment ∈ fragments, Quiet scope fragment) :
    Quiet scope (queryOf fragments) := by
  match fragments with
  | [] => exact quiet_matchAll scope
  | [fragment] =>
      apply quiet_filtered (quiet_matchAll scope)
      exact List.forall_mem_singleton.mp hfragments
  | first :: second :: rest =>
      apply quiet_filtered (quiet_matchAll scope)
      exact quiet_conjunction hfragments

theorem quiet_query {scopes : ScopeList} {filters : List Clause}
    (hfilters : ∀ clause ∈ filters, ∀ part ∈ clause.group, part.ValuesWithoutNested) :
    Quiet scope (queryOf (fragments scopes filters)) := by
  apply quiet_queryOf
  intro fragment hfragment
  obtain ⟨clause, hclause, hfragment⟩ := List.mem_filterMap.mp hfragment
  have hmem : clause ∈ filters := List.mem_of_mem_filter hclause
  exact Clause.quiet_fragment? (hfilters clause hmem) hfragment

/-- The field that is sorted on may have any name as well. -/
theorem quiet_sortOn (field : String) (ascending : Bool) (path? : Option String) :
    Quiet scope (sortOn field ascending path?) := by
  apply quiet_obj_of_withoutNested
  intro entry hentry
  rw [List.mem_singleton.mp hentry]
  cases path? <;> simp [withoutNested_obj_iff, Table.get?]

theorem quiet_sortBody (setup : Setup) (search : Search) :
    Quiet scope (sortBody setup search) := by
  unfold sortBody requestedSort
  split
  next => exact quiet_sortOn _ _ _
  next =>
    split
    next => split <;> exact quiet_sortOn _ _ _
    next => exact quiet_sortOn _ _ _

end Search

/-! ## Maps of aggregations in objects -/

namespace Tree

variable {filter : Json}

theorem inject_of_quiet {tree : Json} (hquiet : Quiet scope tree) :
    inject scope filter tree = some (tree, 0) := by
  have hdepth : tree.depth ≤ injectionAllowance filter tree := by
    rw [injectionAllowance]
    omega
  exact walk_injector_of_quiet scope filter hquiet hdepth 0

/-- A request that an object holds, once the object is entered. The request is an
object as well, so the walk enters it before its entries. -/
theorem walk_layMap {injections : List Injection}
    (hinjections : ∀ injection ∈ injections, Quiet scope injection.filter)
    (hfilter : Quiet scope filter) {map : Fields} (hmap : IsRequest map) {allowance : Nat}
    (hdepth : depthFields (layMap injections map) + filter.depth + 2 ≤ allowance) (count : Nat) :
    walk (injector scope filter) (allowance + 1)
      (.obj (wrapAll scope filter (layMap injections map) count).1)
      (wrapAll scope filter (layMap injections map) count).2 =
        some (.obj (layMap (injections ++ [⟨scope, filter⟩]) map), count + countMap scope map) := by
  have hinside : NothingToWrap scope (wrapAll scope filter (layMap injections map) count).1 :=
    nothingToWrap_wrapAll hmap count
  exact walk_obj_of_walkFields (wrapInside_of_nothingToWrap scope filter hinside _)
    (walkFields_layMap hinjections hfilter hmap hdepth count)

/-- An injection into an object does to the request that the object holds what it does
to the bare request. -/
theorem inject_aggregations (hfilter : Quiet scope filter) {map rest : Fields}
    (hmap : IsRequest map) (hrest : ∀ entry ∈ rest, Quiet scope entry.2) :
    ∃ laid count, injectIntoMap scope filter map = some (laid, count) ∧
      inject scope filter (.obj (("aggregations", .obj map) :: rest)) =
        some (.obj (("aggregations", .obj laid) :: rest), count) := by
  have hnone : ∀ injection ∈ ([] : List Injection), Quiet scope injection.filter :=
    fun _ hmem => nomatch hmem
  have hbare := injectIntoMap_layMap hnone hfilter hmap
  -- the entries of the request stand two levels down in the object
  have htwo : 2 ≤ injectionAllowance filter (.obj (("aggregations", .obj map) :: rest)) := by
    rw [injectionAllowance]
    omega
  obtain ⟨allowance, hallowance⟩ := Nat.exists_eq_add_of_le' htwo
  have hdepth : depthFields map + filter.depth + 2 ≤ allowance ∧
      depthFields rest ≤ allowance + 1 := by
    simp only [injectionAllowance, depth, depthFields] at hallowance
    omega
  rw [← layMap_nil hmap] at hdepth
  have hwalk := walk_layMap hnone hfilter hmap hdepth.1 0
  rw [layMap_nil hmap] at hbare hwalk
  rw [Nat.zero_add] at hwalk
  refine ⟨_, _, hbare, ?_⟩
  rw [inject, hallowance]
  exact walk_aggregations hrest hdepth.2 hwalk

end Tree

/-! ## Search bodies -/

namespace Search

theorem quiet_parts {setup : Setup} {search : Search}
    (hfilters : ∀ clause ∈ search.filters, ∀ part ∈ clause.group, part.ValuesWithoutNested) :
    ∀ entry ∈ [("query", queryOf (fragments setup.scopes search.filters)),
      ("sort", sortBody setup search)], Quiet scope entry.2 := by
  intro entry hentry
  rcases List.mem_cons.mp hentry with rfl | hentry
  · exact quiet_query hfilters
  · rw [List.mem_singleton.mp hentry]
    exact quiet_sortBody setup search

theorem exists_map_of_aggregationsBody? {setup : Setup}
    {aggregations : Option (List Aggregation)} {value : Json}
    (hvalue : aggregationsBody? setup aggregations = some value) :
    ∃ map, value = .obj map ∧ IsRequest map := by
  unfold aggregationsBody? at hvalue
  split at hvalue
  next =>
    cases hvalue
    exact ⟨_, rfl, isRequest_request _ _ _⟩
  next => cases hvalue

end Search

/-- Injecting into the body of a search and injecting into its bare map of aggregations
come to the same: the query and the sort order stay as they are, the map becomes what
it becomes alone, and the counts are equal; without a map nothing is done. The fields
that are searched, sorted on and aggregated over may have any names. The values of the
clauses may not have fields `nested`, and the filter may not hold an aggregation that is
nested at the scope. -/
theorem inject_body_eq_injectIntoMap (setup : Search.Setup) (search : Search)
    (hvalues : ∀ clause ∈ search.filters, ∀ part ∈ clause.group, part.ValuesWithoutNested)
    {scope : String} {filter : Json} (hfilter : Quiet scope filter) {mode : Mode}
    {earlier issues : List Condition} {body : Json}
    (hbody : runIn mode earlier (search.body setup) = (.ok body, issues)) :
    ∃ injected count, inject scope filter body = some (injected, count) ∧
      injected.get? "query" = body.get? "query" ∧ injected.get? "sort" = body.get? "sort" ∧
      (body.get? "aggregations" = none → injected = body ∧ count = 0) ∧
      ∀ aggregations, body.get? "aggregations" = some aggregations →
        ∃ map laid, aggregations = .obj map ∧
          injectIntoMap scope filter map = some (laid, count) ∧
          injected = Search.replace "aggregations" (fun _ => .obj laid) body := by
  have hyields := search.yields_body setup
  obtain ⟨rfl, -⟩ := hyields.run_eq_ok hyields hbody
  have hparts := @Search.quiet_parts scope setup search hvalues
  unfold Search.assembled
  cases hmap : Search.aggregationsBody? setup search.aggregations with
  | none =>
      have hquiet : Quiet scope (.obj [
          ("query", Search.queryOf (Search.fragments setup.scopes search.filters)),
          ("sort", Search.sortBody setup search)]) :=
        (quiet_obj_iff scope _).mpr ⟨nothingToWrap_of_get?_eq_none rfl, hparts⟩
      refine ⟨_, 0, inject_of_quiet hquiet, rfl, rfl, fun _ => ⟨rfl, rfl⟩, ?_⟩
      intro aggregations hsome
      cases hsome
  | some aggregations =>
      obtain ⟨map, rfl, hrequest⟩ := Search.exists_map_of_aggregationsBody? hmap
      obtain ⟨laid, count, hbare, hinject⟩ := inject_aggregations hfilter hrequest hparts
      refine ⟨_, count, hinject, rfl, rfl, ?_, ?_⟩
      · intro hnone
        cases hnone
      · rintro _ heq
        cases heq
        exact ⟨map, laid, rfl, hbare, rfl⟩

/-- A value with a field `nested` is taken for an aggregation, if the field that it is
compared with is called like a map of aggregations. -/
example :
    (inject "lots" Fragment.matchAll (Search.queryOf [Fragment.leaf "term" "aggregations"
      (.obj [("value", .obj [("nested", .obj [("path", .str "lots")])])])])).map Prod.snd =
        some 1 := rfl

/-- A search on fields that are called like the keys of bodies and of fragments, with
two aggregations in the scope of lots. One of them is inside a field `aggregations`. -/
def oddlyNamed : Search where
  sort := some ⟨some "aggregations", true⟩
  filters := [
    { Clause.plain .select "aggregations" [.obj [("path", .str "lots")]] with
      joined := [.plain .term "nested" [.str "lots"]] },
    .plain .term "lots.title" [.str "road"]]
  aggregations := some [
    (on .terms "aggregations").inside (on .sum "lots.value"), on .terms "nested",
    on .terms "lots.query"]

/-- A filter that is itself a query on the nested documents of the scope. -/
def lotFilter : Json :=
  Fragment.nested "lots" (Fragment.leaf "term" "aggregations" (.str "road"))

theorem quiet_lotFilter : Quiet "lots" lotFilter := by
  apply quiet_nested
  exact quiet_leaf (by decide) "aggregations" (withoutNested_str "road")

theorem valuesWithoutNested_oddlyNamed :
    ∀ clause ∈ oddlyNamed.filters, ∀ part ∈ clause.group, part.ValuesWithoutNested := by
  simp [oddlyNamed, Clause.group, Clause.plain, Clause.ValuesWithoutNested,
    withoutNested_obj_iff, Table.get?]

/-- Both aggregations get a layer, in the body as in the bare map. -/
theorem inject_body_eq_injectIntoMap_oddlyNamed :
    (∀ clause ∈ oddlyNamed.filters, ∀ part ∈ clause.group, part.ValuesWithoutNested) ∧
    Quiet "lots" lotFilter ∧
    ∃ map query sort,
      runIn .strict [] (oddlyNamed.body .standard) =
        (.ok (.obj [("aggregations", .obj map), ("query", query), ("sort", sort)]), []) ∧
      ∃ laid, injectIntoMap "lots" lotFilter map = some (laid, 2) ∧
        inject "lots" lotFilter
          (.obj [("aggregations", .obj map), ("query", query), ("sort", sort)]) =
            some (.obj [("aggregations", .obj laid), ("query", query), ("sort", sort)], 2) := by
  have hvalues := valuesWithoutNested_oddlyNamed
  have hbody : runIn .strict [] (oddlyNamed.body .standard) = (.ok _, []) := rfl
  refine ⟨hvalues, quiet_lotFilter, _, _, _, hbody, ?_⟩
  obtain ⟨injected, count, hinject, -, -, -, hmap⟩ :=
    inject_body_eq_injectIntoMap .standard oddlyNamed hvalues quiet_lotFilter hbody
  obtain ⟨map, laid, heq, hbare, rfl⟩ := hmap _ rfl
  cases heq
  -- the two that are nested at the scope are counted in the bare map
  have hcount : some 2 = some count := congrArg (Option.map Prod.snd) hbare
  cases hcount
  exact ⟨laid, hbare, hinject⟩

end TenderSearch
