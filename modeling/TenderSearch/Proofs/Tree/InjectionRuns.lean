import TenderSearch.Clause.Fragment
import TenderSearch.Proofs.Tree.Branches

/-!
# Runs of injections into requests

Injections into a request put exactly the layers there that they should, in the
order of the injections, and every one of them counts the fragments that the
request was built with. The walk also comes to maps that are only called like a
map of aggregations, because a field is; nothing in them looks nested.
-/

namespace TenderSearch.Tree

open Json Aggregation Fragment

variable {scope : String} {filter : Json} {injections : List Injection}

/-! ## Maps that are called like a map of aggregations -/

theorem get?_path_layFragment {key : String} {fragment : Json}
    (hfragment : IsFragment key fragment) :
    (layFragment injections key fragment).get? "path" = none := by
  cases hfragment with
  | leaf _ hleaf => cases hleaf <;> rfl
  | terms => rfl
  | wrapped => rfl

/-- A map of fragments does not look nested, even if one of its fields is called
so: no fragment has a path. -/
theorem isNestedAt_layMap {map : Fields} (hmap : IsRequest map) :
    isNestedAt scope (.obj (layMap injections map)) = false := by
  have hpath : (Json.obj (layMap injections map)).at? ["nested", "path"] = none := by
    rw [at?, get?]
    cases hget : Table.get? "nested" (layMap injections map) with
    | none => rfl
    | some fragment =>
        -- a field is called `nested`, and its fragment has no path
        have hmem := Table.mem_of_get? hget
        rw [layMap_eq_map] at hmem
        obtain ⟨entry, hentry, heq⟩ := List.mem_map.mp hmem
        rw [Prod.mk.injEq] at heq
        obtain ⟨-, rfl⟩ := heq
        rw [Option.bind_some, at?, get?_path_layFragment (hmap entry hentry)]
        rfl
  rw [isNestedAt, nestedAt, hpath]
  rfl

/-- The values in a fragment that is called like a map of aggregations do not
look nested. -/
theorem noneNestedAt_of_isFragment {fragment : Json}
    (hfragment : IsFragment "aggregations" fragment) {fields : Fields}
    (hfields : layFragment injections "aggregations" fragment = .obj fields) :
    NoneNestedAt scope fields := by
  cases hfragment with
  | leaf _ hleaf =>
      rw [layFragment_of_isLeaf injections _ hleaf] at hfields
      cases hleaf <;> cases hfields <;> exact List.forall_mem_singleton.mpr rfl
  | terms _ field size hinner =>
      cases hfields
      exact List.forall_mem_cons.mpr
        ⟨isNestedAt_layMap hinner, List.forall_mem_singleton.mpr rfl⟩
  | wrapped _ _ _ hkey => exact absurd rfl (ne_aggregations_of_mem hkey)

theorem isNestedAt_layFragment {key : String} {fragment : Json}
    (hfragment : IsFragment key fragment) :
    isNestedAt scope (layFragment injections key fragment) = isNestedAt scope fragment := by
  cases hfragment with
  | leaf _ hleaf => rw [layFragment_of_isLeaf injections key hleaf]
  | terms => rfl
  | wrapped other field size =>
      rw [layFragment_wrapped, isNestedAt_wrapper, wrapped, isNestedAt_wrapper]

theorem countP_isNestedAt_layFragment {map : Fields} (hmap : IsRequest map) :
    map.countP (fun entry => isNestedAt scope (layFragment injections entry.1 entry.2)) =
      map.countP fun entry => isNestedAt scope entry.2 :=
  List.countP_congr fun entry hentry => by rw [isNestedAt_layFragment (hmap entry hentry)]

/-- A fragment that is called like a map of aggregations is no wrapper. -/
theorem isNestedAt_of_key_eq {fragment : Json} (hfragment : IsFragment "aggregations" fragment) :
    isNestedAt scope fragment = false := by
  cases hfragment with
  | leaf _ hleaf => exact isNestedAt_of_isLeaf hleaf
  | terms => rfl
  | wrapped _ _ _ hkey => exact absurd rfl (ne_aggregations_of_mem hkey)

/-- A map of fragments, after its own entries are wrapped, has nothing more to
wrap in the fragment that is called like a map of aggregations. -/
theorem nothingToWrap_wrapAll {map : Fields} (hmap : IsRequest map) (count : Nat) :
    NothingToWrap scope (wrapAll scope filter (layMap injections map) count).1 := by
  intro fields hget
  have hmem := Table.mem_of_get? hget
  rw [wrapAll_eq, layMap_eq_map, List.map_map] at hmem
  obtain ⟨⟨key, fragment⟩, hentry, heq⟩ := List.mem_map.mp hmem
  simp only [Function.comp, Prod.mk.injEq] at heq
  obtain ⟨rfl, heq⟩ := heq
  have hfragment := hmap _ hentry
  have hnested : isNestedAt scope (layFragment injections "aggregations" fragment) = false := by
    rw [isNestedAt_layFragment hfragment, isNestedAt_of_key_eq hfragment]
  rw [wrapValue_of_not_nested scope filter hnested] at heq
  exact noneNestedAt_of_isFragment hfragment heq

/-! ## One injection -/

/-- Walking the entries of a map in turn, once the map itself is wrapped. -/
theorem walkFields_wrapAll {map : Fields} (hmap : IsRequest map) {next : List Injection}
    {allowance : Nat} (hwalk : ∀ entry ∈ map, ∀ count,
      walk (injector scope filter) allowance
        (wrapValue scope filter entry.1 (layFragment injections entry.1 entry.2)) count =
          some (layFragment next entry.1 entry.2, count + countInside scope entry.2))
    (count : Nat) :
    walkFields (walk (injector scope filter) allowance) (fun _ => true)
      (wrapAll scope filter (layMap injections map) count).1
      (wrapAll scope filter (layMap injections map) count).2 =
        some (layMap next map, count + countMap scope map) := by
  rw [layMap_eq_map, layMap_eq_map, countMap_eq, ← countP_isNestedAt_layFragment hmap]
  exact walkFields_wrapAll_counting hwalk count

theorem filtersAt_append (other : String) (added : Injection) :
    filtersAt other (injections ++ [added]) =
      filtersAt other injections ++ if added.scope = other then [added.filter] else [] := by
  rw [filtersAt, List.filter_append, List.map_append]
  by_cases hscope : added.scope = other <;> simp [filtersAt, hscope]

theorem layersOver_append (key : String) (children filter : Json) (filters : List Json) :
    layersOver key children (filters ++ [filter]) =
      layerOver key (layersOver key children filters) filter :=
  List.foldl_append

theorem wrapValue_layFragment_wrapped (key other field : String) (size : Nat) :
    wrapValue scope filter key (layFragment injections key (wrapped other field size)) =
      layFragment (injections ++ [⟨scope, filter⟩]) key (wrapped other field size) := by
  rw [layFragment_wrapped, layFragment_wrapped, filtersAt_append]
  by_cases hscope : scope = other
  · subst hscope
    have hnested : isNestedAt scope (.obj [("nested", .obj [("path", .str scope)])]) = true := by
      simp [isNestedAt, nestedAt, at?, get?, Table.get?, string?]
    rw [wrapValue_branch hnested, if_pos rfl, layersOver_append]
  · rw [wrapValue_of_not_nested scope filter, if_neg hscope, List.append_nil]
    rw [isNestedAt_wrapper]
    exact beq_false_of_ne (Ne.symm hscope)

/-- One more injection needs at most two more levels and room for its filter. -/
theorem depth_layFragment_wrapped_append (key other field : String) (size : Nat)
    (added : Injection) :
    (layFragment (injections ++ [added]) key (wrapped other field size)).depth ≤
      (layFragment injections key (wrapped other field size)).depth + added.filter.depth + 2 := by
  rw [layFragment_wrapped, layFragment_wrapped, filtersAt_append]
  by_cases hscope : added.scope = other
  · rw [if_pos hscope, layersOver_append]
    simp only [layerOver, depth, depthFields]
    omega
  · rw [if_neg hscope, List.append_nil]
    omega

theorem countInside_of_isLeaf {fragment : Json} (hleaf : IsLeaf fragment) :
    countInside scope fragment = 0 := by
  cases hleaf <;> rfl

theorem countInside_wrapped (other field : String) (size : Nat) :
    countInside scope (wrapped other field size) = 0 := by
  simp [wrapped, termsBody, countInside, countFields, countMap, countFragment, scopeOf?, at?,
    get?, Table.get?]

theorem countInside_terms (field : String) (size : Nat) (inner : Fields) :
    countInside scope (termsFragment field size (some inner)) = countMap scope inner := by
  simp [termsFragment, termsBody, countInside, countFields]

/-- Walking the fragment that holds a map, if it is known how its entries are
walked. The map is wrapped when the fragment around it is entered. -/
theorem walk_termsFragment {inner : Fields} (hinner : IsRequest inner) (field : String)
    (size : Nat) {next : List Injection} {allowance : Nat}
    (hwalk : ∀ entry ∈ inner, ∀ count,
      walk (injector scope filter) allowance
        (wrapValue scope filter entry.1 (layFragment injections entry.1 entry.2)) count =
          some (layFragment next entry.1 entry.2, count + countInside scope entry.2))
    (count : Nat) :
    walk (injector scope filter) (allowance + 2)
      (termsFragment field size (some (layMap injections inner))) count =
        some (termsFragment field size (some (layMap next inner)),
          count + countMap scope inner) := by
  have hmap : NothingToWrap scope (wrapAll scope filter (inner.map fun entry =>
      (entry.1, layFragment injections entry.1 entry.2)) count).1 := by
    rw [← layMap_eq_map]
    exact nothingToWrap_wrapAll hinner count
  have hdepth : (termsBody field size).depth ≤ allowance + 1 := Nat.le_add_left 1 allowance
  rw [layMap_eq_map, layMap_eq_map, countMap_eq, ← countP_isNestedAt_layFragment hinner]
  exact walk_branch (quiet_termsBody field size) hdepth hmap hwalk

theorem depth_layFragment_le_depthFields {map : Fields} {entry : String × Json}
    (hentry : entry ∈ map) :
    (layFragment injections entry.1 entry.2).depth ≤ depthFields (layMap injections map) := by
  have hmem : (entry.1, layFragment injections entry.1 entry.2) ∈ layMap injections map := by
    rw [layMap_eq_map]
    exact List.mem_map_of_mem hentry
  exact depth_le_depthFields hmem

theorem depth_termsFragment (field : String) (size : Nat) (inner : Fields) :
    depthFields inner + 2 ≤ (termsFragment field size (some inner)).depth := by
  simp only [termsFragment, depth, depthFields]
  omega

/-- The walk through a fragment, once the map that holds it is wrapped. -/
theorem walk_layFragment
    (hinjections : ∀ injection ∈ injections, Quiet scope injection.filter)
    (hfilter : Quiet scope filter) {key : String} {fragment : Json}
    (hfragment : IsFragment key fragment) {allowance : Nat}
    (hdepth : (layFragment injections key fragment).depth + filter.depth + 2 ≤ allowance)
    (count : Nat) :
    walk (injector scope filter) allowance
      (wrapValue scope filter key (layFragment injections key fragment)) count =
        some (layFragment (injections ++ [⟨scope, filter⟩]) key fragment,
          count + countInside scope fragment) := by
  -- on how the fragment is built; only terms fragments have fragments inside
  induction hfragment generalizing allowance count with
  | leaf key hleaf =>
      rw [layFragment_of_isLeaf injections key hleaf] at hdepth
      rw [layFragment_of_isLeaf _ key hleaf, layFragment_of_isLeaf _ key hleaf,
        wrapValue_of_not_nested scope filter (isNestedAt_of_isLeaf hleaf),
        countInside_of_isLeaf hleaf]
      exact walk_injector_of_quiet scope filter (quiet_of_isLeaf hleaf) (by omega) count
  | @wrapped key other field size hkey =>
      have hnext : ∀ injection ∈ injections ++ [⟨scope, filter⟩],
          Quiet scope injection.filter := by
        intro injection hmem
        rcases List.mem_append.mp hmem with hmem | hmem
        · exact hinjections injection hmem
        · rw [List.mem_singleton.mp hmem]
          exact hfilter
      have hle : (layFragment (injections ++ [⟨scope, filter⟩]) key
          (wrapped other field size)).depth ≤
            (layFragment injections key (wrapped other field size)).depth + filter.depth + 2 :=
        depth_layFragment_wrapped_append key other field size ⟨scope, filter⟩
      -- the wrapper has its layer already, and the walk leaves it alone from here on
      rw [wrapValue_layFragment_wrapped, countInside_wrapped]
      exact walk_injector_of_quiet scope filter
        (quiet_layFragment_wrapped hnext key other field size) (by omega) count
  | @terms key field size inner hinner ih =>
      rw [layFragment_terms] at hdepth
      -- the fragments inside are two levels further down
      have hinside := depth_termsFragment field size (layMap injections inner)
      obtain ⟨rest, rfl⟩ : ∃ rest, allowance = rest + 2 := ⟨allowance - 2, by omega⟩
      rw [layFragment_terms, wrapValue_of_not_nested scope filter (isNestedAt_terms ..),
        layFragment_terms, countInside_terms]
      refine walk_termsFragment hinner field size (fun entry hentry count => ?_) count
      have hle : (layFragment injections entry.1 entry.2).depth ≤
          depthFields (layMap injections inner) := depth_layFragment_le_depthFields hentry
      exact ih entry hentry (by omega) count

/-- Walking the entries of a request, once the request itself is wrapped. -/
theorem walkFields_layMap
    (hinjections : ∀ injection ∈ injections, Quiet scope injection.filter)
    (hfilter : Quiet scope filter) {map : Fields} (hmap : IsRequest map) {allowance : Nat}
    (hdepth : depthFields (layMap injections map) + filter.depth + 2 ≤ allowance) (count : Nat) :
    walkFields (walk (injector scope filter) allowance) (fun _ => true)
      (wrapAll scope filter (layMap injections map) count).1
      (wrapAll scope filter (layMap injections map) count).2 =
        some (layMap (injections ++ [⟨scope, filter⟩]) map, count + countMap scope map) := by
  refine walkFields_wrapAll hmap (fun entry hentry count => ?_) count
  have hle : (layFragment injections entry.1 entry.2).depth ≤
      depthFields (layMap injections map) := depth_layFragment_le_depthFields hentry
  exact walk_layFragment hinjections hfilter (hmap entry hentry) (by omega) count

/-- One more injection into a request puts its layer on top of those that are
there, and counts the fragments that the request was built with. -/
theorem injectIntoMap_layMap
    (hinjections : ∀ injection ∈ injections, Quiet scope injection.filter)
    (hfilter : Quiet scope filter) {map : Fields} (hmap : IsRequest map) :
    injectIntoMap scope filter (layMap injections map) =
      some (layMap (injections ++ [⟨scope, filter⟩]) map, countMap scope map) := by
  have hdepth : depthFields (layMap injections map) + filter.depth + 2 ≤
      injectionAllowance filter (.obj (layMap injections map)) := by
    rw [injectionAllowance, depth]
    omega
  have hfields := walkFields_layMap hinjections hfilter hmap hdepth 0
  rw [Nat.zero_add] at hfields
  exact hfields

/-! ## Runs of injections -/

theorem layFragment_nil {key : String} {fragment : Json} (hfragment : IsFragment key fragment) :
    layFragment [] key fragment = fragment := by
  induction hfragment with
  | leaf key hleaf => exact layFragment_of_isLeaf [] key hleaf
  | wrapped => rfl
  | terms key field size _ ih =>
      rw [layFragment_terms, layMap_eq_map, List.map_congr_left fun entry hentry =>
        congrArg (Prod.mk entry.1) (ih entry hentry), List.map_id']

theorem layMap_nil {map : Fields} (hmap : IsRequest map) : layMap [] map = map := by
  rw [layMap_eq_map, List.map_congr_left fun entry hentry =>
    congrArg (Prod.mk entry.1) (layFragment_nil (hmap entry hentry)), List.map_id']

/-- A run of injections after earlier ones. -/
theorem injectAll_layMap {map : Fields} (hmap : IsRequest map) (todo : List Injection) :
    ∀ injections : List Injection,
      (∀ current ∈ todo, ∀ other ∈ injections ++ todo, Quiet current.scope other.filter) →
        injectAll todo (layMap injections map) =
          some (layMap (injections ++ todo) map,
            todo.map fun injection => countMap injection.scope map) := by
  -- every step needs the filters of the earlier ones to be quiet at its scope
  induction todo with
  | nil =>
      intro injections _
      rw [List.append_nil]
      rfl
  | cons current rest ih =>
      intro injections hquiet
      have hcurrent := hquiet current List.mem_cons_self
      have hstep := injectIntoMap_layMap
        (fun injection hmem => hcurrent injection (List.mem_append_left _ hmem))
        (hcurrent current (List.mem_append_right _ List.mem_cons_self)) hmap
      have hrest := ih (injections ++ [current]) fun later hlater other hother =>
        hquiet later (List.mem_cons_of_mem _ hlater) other (by
          rwa [List.append_assoc] at hother)
      rw [List.append_assoc, List.singleton_append] at hrest
      rw [injectAll, hstep, Option.bind_eq_bind, Option.bind_some]
      simp only [hrest]
      rfl

/-- After a run of injections into a request, every fragment that the request
was built with at a nested scope holds one layer for each injection at the scope,
the last one outermost, and nothing else is changed. Every injection counts the
fragments at its scope that the request was built with. The filters may not
themselves hold an aggregation that is nested at a scope of the run. -/
theorem injectAll_request (scopes : ScopeList) (defaultSize : Nat)
    (aggregations : List Aggregation) (run : List Injection)
    (hquiet : ∀ current ∈ run, ∀ other ∈ run, Quiet current.scope other.filter) :
    injectAll run (request scopes defaultSize aggregations) =
      some (layMap run (request scopes defaultSize aggregations),
        run.map fun injection =>
          countMap injection.scope (request scopes defaultSize aggregations)) := by
  have hrequest := isRequest_request scopes defaultSize aggregations
  have hrun := injectAll_layMap hrequest run [] hquiet
  rw [layMap_nil hrequest] at hrun
  exact hrun

/-- Two layers around a fragment inside of a field that is called like a map of
aggregations. A query nested at the scope is no aggregation nested there. -/
theorem injectAll_request_two_layers :
    (∀ current ∈ [Injection.mk "lots" matchAll, ⟨"buyers", matchAll⟩,
      ⟨"lots", nested "lots" matchAll⟩],
      ∀ other ∈ [Injection.mk "lots" matchAll, ⟨"buyers", matchAll⟩,
        ⟨"lots", nested "lots" matchAll⟩], Quiet current.scope other.filter) ∧
      injectAll [⟨"lots", matchAll⟩, ⟨"buyers", matchAll⟩, ⟨"lots", nested "lots" matchAll⟩]
        (request ["lots"] 10 [(on .terms "aggregations").inside (on .sum "lots.value")]) =
          some ([("aggregations", .obj [
            ("aggregations", .obj [
              ("lots_value", .obj [
                ("aggregations", .obj [("lots_value_filter", .obj [
                  ("aggregations", .obj [("lots_value_filter", .obj [
                    ("aggregations", .obj [("lots_value_nested",
                      .obj [("terms", termsBody "lots.value" 10)])]),
                    ("filter", matchAll)])]),
                  ("filter", nested "lots" matchAll)])]),
                ("nested", .obj [("path", .str "lots")])])]),
            ("terms", termsBody "aggregations" 10)])], [1, 0, 1]) := by
  have hquiet : ∀ current ∈ [Injection.mk "lots" matchAll, ⟨"buyers", matchAll⟩,
      ⟨"lots", nested "lots" matchAll⟩],
      ∀ other ∈ [Injection.mk "lots" matchAll, ⟨"buyers", matchAll⟩,
        ⟨"lots", nested "lots" matchAll⟩], Quiet current.scope other.filter := by
    simp [matchAll, nested, quiet_obj_iff, NothingToWrap, Table.get?]
  exact ⟨hquiet, (injectAll_request ["lots"] 10
    [(on .terms "aggregations").inside (on .sum "lots.value")] _ hquiet).trans rfl⟩

end TenderSearch.Tree
