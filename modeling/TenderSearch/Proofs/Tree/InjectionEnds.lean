import Mathlib.Tactic.ByContra
import TenderSearch.Proofs.Tree.Endings
import TenderSearch.Proofs.Tree.QuietFragments

/-!
# Injections that end

The walk of an injection goes on into the layers it has made. It ends for a
quiet filter in every tree, since every level of the tree is entered once and
gains at most two levels. A filter that holds an aggregation nested at the scope
is put below that aggregation again, and below the one inside of it; such an
injection only ends where there is nothing to wrap.
-/

namespace TenderSearch.Tree

open Json

variable (scope : String) (filter : Json)

/-- A value with its entries wrapped, as a map of aggregations. -/
def wrapEntries : Json → Json
  | .obj map => .obj (map.map fun entry => (entry.1, wrapValue scope filter entry.1 entry.2))
  | value => value

/-- A map in which nothing is nested at a scope, neither its entries nor
anything inside of them. -/
def QuietMap (map : Fields) : Prop :=
  NoneNestedAt scope map ∧ ∀ entry ∈ map, Quiet scope entry.2

/-- The new layer of an aggregation around what it had as its children. -/
def layerMap (key : String) (children : Option Json) : Json :=
  .obj [(key ++ "_filter", filterLayer filter children)]

theorem wrapEntries_obj (map : Fields) (count : Nat) :
    wrapEntries scope filter (.obj map) = .obj (wrapAll scope filter map count).1 := by
  rw [wrapEntries, wrapAll_eq]

theorem wrapValue_eq_wrap {key : String} {aggregation : Fields}
    (hnested : nestedAt scope aggregation = true) :
    wrapValue scope filter key (.obj aggregation) = .obj (wrap filter key aggregation) := by
  rw [wrapValue, if_pos hnested]

/-! ## What is in an object once it is entered -/

/-- Entering an object keeps its fields, but for the entries of the map of
aggregations that it holds. -/
theorem mem_of_mem_wrapInside {fields : Fields} {count : Nat} {entry : String × Json}
    (hentry : entry ∈ (wrapInside scope filter fields count).1) :
    entry ∈ fields ∨ ∃ value, ("aggregations", value) ∈ fields ∧
      entry = ("aggregations", wrapEntries scope filter value) := by
  unfold wrapInside at hentry
  split at hentry
  next map hget =>
    rcases Table.mem_or_eq_of_mem_modify hentry with hmem | ⟨_, -, rfl⟩
    · exact .inl hmem
    · refine .inr ⟨.obj map, Table.mem_of_get? hget, ?_⟩
      rw [wrapEntries_obj scope filter map count]
  next => exact .inl hentry

theorem mem_of_mem_wrap {key : String} {aggregation : Fields} {entry : String × Json}
    (hentry : entry ∈ wrap filter key aggregation) :
    entry ∈ aggregation ∨
      entry = ("aggregations", layerMap filter key (Table.get? "aggregations" aggregation)) :=
  (Table.eq_or_mem_of_mem_insert hentry).symm

theorem isNestedAt_layerMap (key : String) (children : Option Json) :
    isNestedAt scope (layerMap filter key children) = false := by
  have hne : key ++ "_filter" ≠ "nested" := fun heq =>
    absurd (underscore_mem_append key (show '_' ∈ "_filter".toList by decide))
      (by rw [heq]; decide)
  simp [layerMap, isNestedAt, nestedAt, at?, get?, Table.get?, hne]

theorem isNestedAt_filterLayer (children : Option Json) :
    isNestedAt scope (filterLayer filter children) = false := by
  cases children <;> rfl

/-- There is nothing to wrap in a new layer. -/
theorem wrapEntries_layerMap (key : String) (children : Option Json) :
    wrapEntries scope filter (layerMap filter key children) = layerMap filter key children := by
  rw [layerMap, wrapEntries, List.map_singleton,
    wrapValue_of_not_nested scope filter (isNestedAt_filterLayer scope filter children)]

/-! ## Injections of quiet filters -/

/-- The walk comes to a value in different roles: as it is in the tree, as an
entry of a map that has been wrapped, as such a map itself, or as an entry of a
map that is taken for a map in turn, because its name is the one of such maps.
It ends in all of them. -/
structure EndsInEveryRole (allowance : Nat) (value : Json) : Prop where
  plain : EndsWithin (injector scope filter) allowance value
  entry : ∀ key, EndsWithin (injector scope filter) allowance (wrapValue scope filter key value)
  map : EndsWithin (injector scope filter) allowance (wrapEntries scope filter value)
  mapEntry : ∀ key, EndsWithin (injector scope filter) allowance
    (wrapEntries scope filter (wrapValue scope filter key value))

variable {scope filter}

theorem endsInEveryRole_of_not_obj {value : Json} (hobj : ∀ fields, value ≠ .obj fields)
    {allowance : Nat} (hends : EndsWithin (injector scope filter) allowance value) :
    EndsInEveryRole scope filter allowance value := by
  cases value with
  | obj fields => exact absurd rfl (hobj fields)
  | _ => exact ⟨hends, fun _ => hends, hends, fun _ => hends⟩

variable (filter) in
theorem endsWithin_of_quiet {tree : Json} (hquiet : Quiet scope tree) {allowance : Nat}
    (hdepth : tree.depth ≤ allowance) : EndsWithin (injector scope filter) allowance tree :=
  fun count => ⟨_, walk_injector_of_quiet scope filter hquiet hdepth count⟩

/-- The walk of the new layer ends if the walk of the children does. -/
theorem endsWithin_layerMap (hfilter : Quiet scope filter) {allowance : Nat}
    (hdepth : filter.depth ≤ allowance) {children : Option Json}
    (hchildren : ∀ value ∈ children, EndsInEveryRole scope filter allowance value)
    (key : String) :
    EndsWithin (injector scope filter) (allowance + 2) (layerMap filter key children) := by
  have hlayer : EndsWithin (injector scope filter) (allowance + 1)
      (filterLayer filter children) := by
    have hfilterEnds := endsWithin_of_quiet filter hfilter hdepth
    cases children with
    | none =>
        refine endsWithin_obj fun count entry hentry => ?_
        rcases mem_of_mem_wrapInside scope filter hentry with hmem | ⟨_, hmem, rfl⟩
        · rw [List.mem_singleton.mp hmem]
          exact hfilterEnds
        · simp at hmem
    | some children =>
        have hroles := hchildren children rfl
        refine endsWithin_obj fun count entry hentry => ?_
        rcases mem_of_mem_wrapInside scope filter hentry with hmem | ⟨value, hmem, rfl⟩
        · rcases List.mem_cons.mp hmem with rfl | hmem
          · exact hroles.plain
          · rw [List.mem_singleton.mp hmem]
            exact hfilterEnds
        · rcases List.mem_cons.mp hmem with heq | hmem
          · rw [(Prod.mk.inj heq).2]
            exact hroles.map
          · simp at hmem
  refine endsWithin_obj fun count entry hentry => ?_
  rcases mem_of_mem_wrapInside scope filter hentry with hmem | ⟨_, hmem, -⟩
  · rw [List.mem_singleton.mp hmem]
    exact hlayer
  · exact absurd (congrArg Prod.fst (List.mem_singleton.mp hmem)).symm (filterKey_ne key)

section Objects

variable {fields : Fields} {allowance : Nat}

/-- An object is walked to its end if its fields are, each in its role. -/
theorem endsWithin_obj_of_roles
    (hroles : ∀ entry ∈ fields, EndsWithin (injector scope filter) allowance entry.2 ∧
      EndsWithin (injector scope filter) allowance (wrapEntries scope filter entry.2)) :
    EndsWithin (injector scope filter) (allowance + 1) (.obj fields) := by
  refine endsWithin_obj fun count entry hentry => ?_
  rcases mem_of_mem_wrapInside scope filter hentry with hmem | ⟨value, hmem, rfl⟩
  · exact (hroles entry hmem).1
  · exact (hroles _ hmem).2

theorem endsWithin_wrapEntries
    (hroles : ∀ entry ∈ fields,
      EndsWithin (injector scope filter) allowance (wrapValue scope filter entry.1 entry.2) ∧
      EndsWithin (injector scope filter) allowance
        (wrapEntries scope filter (wrapValue scope filter entry.1 entry.2))) :
    EndsWithin (injector scope filter) (allowance + 1) (wrapEntries scope filter (.obj fields)) := by
  refine endsWithin_obj_of_roles fun entry hentry => ?_
  obtain ⟨original, hmem, rfl⟩ := List.mem_map.mp hentry
  exact hroles original hmem

/-- An object is walked to its end in every role if its fields are. -/
theorem endsInEveryRole_obj (hfilter : Quiet scope filter) (hdepth : filter.depth ≤ allowance)
    (hfields : ∀ entry ∈ fields, ∀ extra,
      EndsInEveryRole scope filter (allowance + extra) entry.2) :
    EndsInEveryRole scope filter (allowance + 3) (.obj fields) := by
  have hlayer : ∀ key, EndsWithin (injector scope filter) (allowance + 2)
      (layerMap filter key (Table.get? "aggregations" fields)) := fun key =>
    endsWithin_layerMap hfilter hdepth
      (fun value hget => hfields _ (Table.mem_of_get? hget) 0) key
  have hvalue : EndsWithin (injector scope filter) (allowance + 3) (.obj fields) :=
    endsWithin_obj_of_roles fun entry hentry =>
      ⟨(hfields entry hentry 2).plain, (hfields entry hentry 2).map⟩
  have hmap : EndsWithin (injector scope filter) (allowance + 3)
      (wrapEntries scope filter (.obj fields)) :=
    endsWithin_wrapEntries fun entry hentry =>
      ⟨(hfields entry hentry 2).entry _, (hfields entry hentry 2).mapEntry _⟩
  -- a wrapped object has the new layer for its map of aggregations
  have hwrapped : ∀ key, EndsWithin (injector scope filter) (allowance + 3)
      (.obj (wrap filter key fields)) := by
    refine fun key => endsWithin_obj_of_roles fun entry hentry => ?_
    rcases mem_of_mem_wrap filter hentry with hmem | rfl
    · exact ⟨(hfields entry hmem 2).plain, (hfields entry hmem 2).map⟩
    · rw [wrapEntries_layerMap]
      exact ⟨hlayer key, hlayer key⟩
  have hwrappedMap : ∀ key, EndsWithin (injector scope filter) (allowance + 3)
      (wrapEntries scope filter (.obj (wrap filter key fields))) := by
    refine fun key => endsWithin_wrapEntries fun entry hentry => ?_
    rcases mem_of_mem_wrap filter hentry with hmem | rfl
    · exact ⟨(hfields entry hmem 2).entry _, (hfields entry hmem 2).mapEntry _⟩
    · rw [wrapValue_of_not_nested scope filter (isNestedAt_layerMap scope filter key _),
        wrapEntries_layerMap]
      exact ⟨hlayer key, hlayer key⟩
  cases hnested : nestedAt scope fields with
  | false =>
      have hsame : ∀ key, wrapValue scope filter key (.obj fields) = .obj fields :=
        wrapValue_of_not_nested scope filter hnested
      exact ⟨hvalue, fun key => (hsame key).symm ▸ hvalue, hmap,
        fun key => (hsame key).symm ▸ hmap⟩
  | true =>
      have hwrap : ∀ key,
          wrapValue scope filter key (.obj fields) = .obj (wrap filter key fields) :=
        fun key => wrapValue_eq_wrap scope filter hnested
      exact ⟨hvalue, fun key => (hwrap key).symm ▸ hwrapped key, hmap,
        fun key => (hwrap key).symm ▸ hwrappedMap key⟩

end Objects

/-- Three units of allowance for every level of a tree are enough to inject a
quiet filter, besides those for the filter itself. -/
theorem endsInEveryRole (hfilter : Quiet scope filter) {tree : Json} {allowance : Nat}
    (hdepth : 3 * tree.depth + filter.depth ≤ allowance) :
    EndsInEveryRole scope filter allowance tree := by
  induction tree using Json.memberInduction generalizing allowance with
  | null | bool | num | str =>
      exact endsInEveryRole_of_not_obj (by simp) (endsWithin_of_scalar (by simp) (by simp))
  | arr items ih =>
      rw [depth] at hdepth
      obtain ⟨rest, rfl⟩ : ∃ rest, allowance = rest + 1 := ⟨allowance - 1, by omega⟩
      refine endsInEveryRole_of_not_obj (by simp) (endsWithin_arr fun item hitem => ?_)
      have hle := depth_le_depthItems hitem
      exact (ih item hitem (by omega)).plain
  | obj fields ih =>
      rw [depth] at hdepth
      obtain ⟨rest, rfl⟩ : ∃ rest, allowance = rest + 3 := ⟨allowance - 3, by omega⟩
      refine endsInEveryRole_obj hfilter (by omega) fun entry hentry extra => ?_
      have hle := depth_le_depthFields hentry
      exact ih entry hentry (by omega)

/-! ## Injections of filters into themselves -/

theorem quiet_filter_of_filterLayer {children : Option Json}
    (hquiet : Quiet scope (filterLayer filter children)) : Quiet scope filter := by
  cases children with
  | none => exact ((quiet_obj_iff scope _).mp hquiet).2 ("filter", filter) (by simp)
  | some children => exact ((quiet_obj_iff scope _).mp hquiet).2 ("filter", filter) (by simp)

/-- Wrapping an aggregation puts the filter into it. -/
theorem quiet_filter_of_wrapValue {key : String} {value : Json}
    (hnested : isNestedAt scope value = true)
    (hquiet : Quiet scope (wrapValue scope filter key value)) : Quiet scope filter := by
  cases value with
  | obj aggregation =>
      rw [isNestedAt] at hnested
      rw [wrapValue_eq_wrap scope filter hnested, quiet_obj_iff] at hquiet
      have hlayerMap := hquiet.2 _ (Table.mem_of_get? (Table.get?_insert_self "aggregations"
        (layerMap filter key (Table.get? "aggregations" aggregation)) aggregation))
      exact quiet_filter_of_filterLayer
        (((quiet_obj_iff scope _).mp hlayerMap).2 _ List.mem_cons_self)
  | _ => cases hnested

/-- A map in which something is nested at the scope is not quiet once its entries
are wrapped, if the filter is not. -/
theorem exists_not_quiet_of_wrapAll (hfilter : ¬ Quiet scope filter) {map : Fields}
    (hmap : ¬ QuietMap scope map) (count : Nat) :
    ∃ entry ∈ (wrapAll scope filter map count).1, ¬ Quiet scope entry.2 := by
  by_contra! hquiet
  rw [wrapAll_eq] at hquiet
  have hentries : ∀ entry ∈ map, Quiet scope (wrapValue scope filter entry.1 entry.2) :=
    fun entry hentry => hquiet _ (List.mem_map_of_mem hentry)
  have hnone : NoneNestedAt scope map := fun entry hentry => by
    by_contra hnested
    exact hfilter (quiet_filter_of_wrapValue (by simpa using hnested) (hentries entry hentry))
  refine hmap ⟨hnone, fun entry hentry => ?_⟩
  have hvalue := hentries entry hentry
  rwa [wrapValue_of_not_nested scope filter (hnone entry hentry)] at hvalue

theorem exists_not_quiet_of_wrapInside (hfilter : ¬ Quiet scope filter) {fields : Fields}
    (hfields : ¬ Quiet scope (.obj fields)) (count : Nat) :
    ∃ entry ∈ (wrapInside scope filter fields count).1, ¬ Quiet scope entry.2 := by
  by_cases hnothing : NothingToWrap scope fields
  · rw [wrapInside_of_nothingToWrap scope filter hnothing]
    by_contra! hquiet
    exact hfields ((quiet_obj_iff scope fields).mpr ⟨hnothing, hquiet⟩)
  · simp only [NothingToWrap, not_forall] at hnothing
    obtain ⟨map, hget, hnested⟩ := hnothing
    obtain ⟨entry, hentry, hquiet⟩ :=
      exists_not_quiet_of_wrapAll hfilter (fun hmap => hnested hmap.1) count
    have hmem : ("aggregations", Json.obj (wrapAll scope filter map count).1) ∈
        (wrapInside scope filter fields count).1 := by
      refine Table.mem_of_get? ?_
      simp [wrapInside, hget]
    exact ⟨_, hmem, fun hwrapped => hquiet (((quiet_obj_iff scope _).mp hwrapped).2 entry hentry)⟩

/-- If there is something to wrap in both a tree and the filter, the filter is
put into itself without end. -/
theorem neverEnds_injector (hfilter : ¬ Quiet scope filter) {tree : Json}
    (htree : ¬ Quiet scope tree) : NeverEnds (injector scope filter) tree := by
  refine neverEnds_of_handedOn (fun tree => ¬ Quiet scope tree) ?_ ?_ ?_ htree
  · intro tree htree
    by_contra! hscalar
    exact htree (everywhere_of_scalar hscalar.1 hscalar.2)
  · intro items hitems
    by_contra! hquiet
    exact hitems ((quiet_arr_iff scope items).mpr hquiet)
  · intro fields count hfields
    obtain ⟨entry, hentry, hquiet⟩ := exists_not_quiet_of_wrapInside hfilter hfields count
    exact ⟨entry, hentry, rfl, hquiet⟩

/-! ## Which injections end -/

variable (scope filter) in
theorem inject_isSome_iff (tree : Json) :
    (inject scope filter tree).isSome ↔ Quiet scope filter ∨ Quiet scope tree := by
  rw [Option.isSome_iff_exists, inject, injectionAllowance]
  constructor
  · rintro ⟨result, hresult⟩
    by_contra! hquiet
    rw [neverEnds_injector hquiet.1 hquiet.2] at hresult
    cases hresult
  · rintro (hfilter | htree)
    · exact (endsInEveryRole hfilter (by omega)).plain 0
    · exact endsWithin_of_quiet filter htree (by omega) 0

/-- Injecting into a map of aggregations never ends if there is something to wrap
in both the map and the filter. -/
theorem walkFields_wrapAll_eq_none (hfilter : ¬ Quiet scope filter) {map : Fields}
    (hmap : ¬ QuietMap scope map) (allowance count : Nat) :
    walkFields (walk (injector scope filter) allowance) (fun _ => true)
      (wrapAll scope filter map count).1 (wrapAll scope filter map count).2 = none := by
  obtain ⟨entry, hentry, hquiet⟩ := exists_not_quiet_of_wrapAll hfilter hmap count
  exact walkFields_eq_none hentry rfl (neverEnds_injector hfilter hquiet allowance) _

variable (scope filter) in
theorem injectIntoMap_isSome_iff (map : Fields) :
    (injectIntoMap scope filter map).isSome ↔ Quiet scope filter ∨ QuietMap scope map := by
  rw [Option.isSome_iff_exists]
  constructor
  · rintro ⟨result, hresult⟩
    by_contra! hquiet
    have hnone : injectIntoMap scope filter map = none :=
      walkFields_wrapAll_eq_none hquiet.1 hquiet.2 _ 0
    rw [hnone] at hresult
    cases hresult
  · intro hquiet
    refine exists_walkFields (fun entry hentry => ?_) _
    rw [wrapAll_eq] at hentry
    obtain ⟨original, hmem, rfl⟩ := List.mem_map.mp hentry
    have hle := depth_le_depthFields hmem
    rcases hquiet with hfilter | ⟨hnone, hmembers⟩
    · exact (endsInEveryRole hfilter (by rw [injectionAllowance, depth]; omega)).entry _
    · rw [wrapValue_of_not_nested scope filter (hnone original hmem)]
      exact endsWithin_of_quiet filter (hmembers original hmem)
        (by rw [injectionAllowance, depth]; omega)

/-- An injection ends exactly if its filter or what it is injected into holds no
aggregation nested at the scope. If it does not end, it would not with any other
allowance of nesting either. -/
theorem injection_ends_iff_quiet (scope : String) (filter : Json) :
    (∀ tree,
      ((∃ result, inject scope filter tree = some result) ↔
        Quiet scope filter ∨ Quiet scope tree) ∧
      (inject scope filter tree = none → NeverEnds (injector scope filter) tree)) ∧
    ∀ map,
      ((∃ result, injectIntoMap scope filter map = some result) ↔
        Quiet scope filter ∨ QuietMap scope map) ∧
      (injectIntoMap scope filter map = none → ∀ allowance count,
        walkFields (walk (injector scope filter) allowance) (fun _ => true)
          (wrapAll scope filter map count).1 (wrapAll scope filter map count).2 = none) := by
  simp only [← Option.isSome_iff_exists]
  refine ⟨fun tree => ⟨inject_isSome_iff scope filter tree, fun hnone => ?_⟩,
    fun map => ⟨injectIntoMap_isSome_iff scope filter map, fun hnone => ?_⟩⟩
  · have hquiet := mt (inject_isSome_iff scope filter tree).mpr (by simp [hnone])
    exact neverEnds_injector (mt .inl hquiet) (mt .inr hquiet)
  · have hquiet := mt (injectIntoMap_isSome_iff scope filter map).mpr (by simp [hnone])
    exact walkFields_wrapAll_eq_none (mt .inl hquiet) (mt .inr hquiet)

/-- A filter that is called like the tree it is injected into: neither a tree nor
a bare map comes to an end. -/
theorem injection_into_itself_never_ends :
    inject "lots"
      (.obj [("aggregations", .obj [("a", .obj [("nested", .obj [("path", .str "lots")])])])])
      (.obj [("aggregations", .obj [("a", .obj [("nested", .obj [("path", .str "lots")])])])]) =
        none ∧
    NeverEnds
      (injector "lots"
        (.obj [("aggregations", .obj [("a", .obj [("nested", .obj [("path", .str "lots")])])])]))
      (.obj [("aggregations", .obj [("a", .obj [("nested", .obj [("path", .str "lots")])])])]) ∧
    injectIntoMap "lots"
      (.obj [("aggregations", .obj [("a", .obj [("nested", .obj [("path", .str "lots")])])])])
      [("a", .obj [("nested", .obj [("path", .str "lots")])])] = none := by
  have hquiet : ¬ Quiet "lots" (.obj [("aggregations",
      .obj [("a", .obj [("nested", .obj [("path", .str "lots")])])])]) := fun hquiet =>
    absurd (((quiet_obj_iff "lots" _).mp hquiet).1 _ rfl _ List.mem_cons_self) (by decide)
  have hmap : ¬ QuietMap "lots" [("a", .obj [("nested", .obj [("path", .str "lots")])])] :=
    fun hmap => absurd (hmap.1 _ List.mem_cons_self) (by decide)
  refine ⟨neverEnds_injector hquiet hquiet _ _, neverEnds_injector hquiet hquiet, ?_⟩
  exact walkFields_wrapAll_eq_none hquiet hmap _ _

end TenderSearch.Tree
