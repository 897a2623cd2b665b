import Mathlib.Tactic.ByContra
import TenderSearch.Proofs.Tree.QuietFragments

/-!
# Injections at every depth

A fragment with fragments inside is walked once their walks are known. So where
all fragments are regular, an injection puts one layer below every fragment that
is nested at its scope, however deep it is.
-/

namespace TenderSearch.Tree

open Json

variable {scope : String} {filter : Json}

/-! ## Fragments around maps -/

/-- Walking the entries of a map in turn, once the map itself is wrapped. The
values in the map and the values that come out are both given entry by entry. -/
theorem walkFields_wrapAll_counting {value result : String × Json → Json}
    {weight : String × Json → Nat} {map : Fields} {allowance : Nat}
    (hwalk : ∀ entry ∈ map, ∀ count,
      walk (injector scope filter) allowance (wrapValue scope filter entry.1 (value entry)) count =
        some (result entry, count + weight entry)) (count : Nat) :
    walkFields (walk (injector scope filter) allowance) (fun _ => true)
      (wrapAll scope filter (map.map fun entry => (entry.1, value entry)) count).1
      (wrapAll scope filter (map.map fun entry => (entry.1, value entry)) count).2 =
        some (map.map fun entry => (entry.1, result entry),
          count + (map.countP (fun entry => isNestedAt scope (value entry)) +
            (map.map weight).sum)) := by
  have hcount : (map.map fun entry => (entry.1, value entry)).countP
      (fun entry => isNestedAt scope entry.2) =
        map.countP fun entry => isNestedAt scope (value entry) := by
    rw [List.countP_map]
    rfl
  have hfields := walkFields_counting hwalk
    (count + map.countP fun entry => isNestedAt scope (value entry))
  rw [wrapAll_eq, hcount, List.map_map, ← Nat.add_assoc]
  exact hfields

/-- An injection into an object goes into the map of aggregations that it holds, and
leaves everything else alone that is quiet. -/
theorem walk_aggregations {map laid rest : Fields}
    (hrest : ∀ entry ∈ rest, Quiet scope entry.2) {allowance : Nat}
    (hdepth : depthFields rest ≤ allowance) {count total : Nat}
    (hwalk : walk (injector scope filter) allowance (.obj (wrapAll scope filter map count).1)
      (wrapAll scope filter map count).2 = some (.obj laid, total)) :
    walk (injector scope filter) (allowance + 1)
      (.obj (("aggregations", .obj map) :: rest)) count =
        some (.obj (("aggregations", .obj laid) :: rest), total) := by
  have henter : wrapInside scope filter (("aggregations", .obj map) :: rest) count =
      (("aggregations", .obj (wrapAll scope filter map count).1) :: rest,
        (wrapAll scope filter map count).2) := rfl
  have hothers : walkFields (walk (injector scope filter) allowance) (fun _ => true) rest total =
      some (rest, total) := by
    apply walkFields_eq_self
    intro entry hentry
    have hle : entry.2.depth ≤ allowance := Nat.le_trans (depth_le_depthFields hentry) hdepth
    exact walk_injector_of_quiet scope filter (hrest entry hentry) hle total
  refine walk_obj_of_walkFields henter ?_
  simp only [walkFields, injector] at hwalk hothers ⊢
  simp [hwalk, hothers]

/-- Walking a fragment that holds a map of other fragments. The map is wrapped when
the fragment is entered, and it may not hold another map that is called like one. -/
theorem walk_branch {value result : String × Json → Json} {weight : String × Json → Nat}
    {map : Fields} {kind : String} {body : Json} (hbody : Quiet scope body) {allowance : Nat}
    (hdepth : body.depth ≤ allowance + 1) {count : Nat}
    (hmap : NothingToWrap scope
      (wrapAll scope filter (map.map fun entry => (entry.1, value entry)) count).1)
    (hwalk : ∀ entry ∈ map, ∀ count,
      walk (injector scope filter) allowance (wrapValue scope filter entry.1 (value entry)) count =
        some (result entry, count + weight entry)) :
    walk (injector scope filter) (allowance + 2)
      (.obj [("aggregations", .obj (map.map fun entry => (entry.1, value entry))),
        (kind, body)]) count =
        some (.obj [("aggregations", .obj (map.map fun entry => (entry.1, result entry))),
            (kind, body)],
          count + (map.countP (fun entry => isNestedAt scope (value entry)) +
            (map.map weight).sum)) := by
  -- the inner map is an object as well: the walk enters it before its entries
  have hinner := walk_obj_of_walkFields (wrapInside_of_nothingToWrap scope filter hmap _)
    (walkFields_wrapAll_counting hwalk count)
  have hrest : depthFields [(kind, body)] ≤ allowance + 1 := by
    simpa [depthFields] using hdepth
  exact walk_aggregations (List.forall_mem_singleton.mpr hbody) hrest hinner

/-- Likewise for a map that is given as it is. -/
theorem walk_branch_self {result : String × Json → Json} {weight : String × Json → Nat}
    {map : Fields} {kind : String} {body : Json} (hbody : Quiet scope body) {allowance : Nat}
    (hdepth : body.depth ≤ allowance + 1) {count : Nat}
    (hmap : NothingToWrap scope (wrapAll scope filter map count).1)
    (hwalk : ∀ entry ∈ map, ∀ count,
      walk (injector scope filter) allowance (wrapValue scope filter entry.1 entry.2) count =
        some (result entry, count + weight entry)) :
    walk (injector scope filter) (allowance + 2)
      (.obj [("aggregations", .obj map), (kind, body)]) count =
        some (.obj [("aggregations", .obj (map.map fun entry => (entry.1, result entry))),
            (kind, body)],
          count + (map.countP (fun entry => isNestedAt scope entry.2) +
            (map.map weight).sum)) := by
  have hsame : (map.map fun entry => (entry.1, entry.2)) = map := List.map_id' map
  have hvalues : NothingToWrap scope
      (wrapAll scope filter (map.map fun entry => (entry.1, entry.2)) count).1 := by
    rwa [hsame]
  rw [← walk_branch hbody hdepth hvalues hwalk, hsame]

theorem isNestedAt_branch (children : Json) (kind : String) (body : Json) :
    isNestedAt scope (.obj [("aggregations", children), (kind, body)]) =
      isNestedAt scope (.obj [(kind, body)]) := by
  simp [isNestedAt, nestedAt, at?, get?, Table.get?]

/-- Wrapping a fragment that is nested at the scope puts one layer on top of its
children. -/
theorem wrapValue_branch {children : Json} {kind : String} {body : Json}
    (hnested : isNestedAt scope (.obj [(kind, body)]) = true) (key : String) :
    wrapValue scope filter key (.obj [("aggregations", children), (kind, body)]) =
      .obj [("aggregations", layerOver key children filter), (kind, body)] := by
  rw [← isNestedAt_branch children, isNestedAt] at hnested
  rw [wrapValue, if_pos hnested]
  rfl

/-! ## Regular fragments -/

/-- Fragments with one field for what they ask for, and perhaps a map of other
regular fragments. Nothing in that field is nested at the scope. -/
inductive Regular (scope : String) : Json → Prop where
  | leaf {kind : String} {body : Json} (hkind : kind ≠ "aggregations")
      (hbody : Quiet scope body) : Regular scope (.obj [(kind, body)])
  | branch {inner : Fields} {kind : String} {body : Json} (hkind : kind ≠ "aggregations")
      (hbody : Quiet scope body) (hkeys : ∀ entry ∈ inner, entry.1 ≠ "aggregations")
      (hinner : ∀ entry ∈ inner, Regular scope entry.2) :
      Regular scope (.obj [("aggregations", .obj inner), (kind, body)])

theorem regular_leaf_iff {kind : String} {body : Json} :
    Regular scope (.obj [(kind, body)]) ↔ kind ≠ "aggregations" ∧ Quiet scope body := by
  constructor
  · intro hregular
    cases hregular with
    | leaf hkind hbody => exact ⟨hkind, hbody⟩
  · rintro ⟨hkind, hbody⟩
    exact .leaf hkind hbody

theorem regular_branch_iff {inner : Fields} {kind : String} {body : Json} :
    Regular scope (.obj [("aggregations", .obj inner), (kind, body)]) ↔
      kind ≠ "aggregations" ∧ Quiet scope body ∧
        ∀ entry ∈ inner, entry.1 ≠ "aggregations" ∧ Regular scope entry.2 := by
  constructor
  · intro hregular
    cases hregular with
    | branch hkind hbody hkeys hinner =>
        exact ⟨hkind, hbody, fun entry hentry => ⟨hkeys entry hentry, hinner entry hentry⟩⟩
  · rintro ⟨hkind, hbody, hinner⟩
    exact .branch hkind hbody (fun entry hentry => (hinner entry hentry).1)
      fun entry hentry => (hinner entry hentry).2

variable (scope filter) in
mutual

/-- A fragment with a layer below every fragment inside that is nested at the
scope. -/
def laidInside : Json → Json
  | .obj fields => .obj (laidFields fields)
  | value => value

def laidFields : List (String × Json) → List (String × Json)
  | [] => []
  | (name, .obj inner) :: rest =>
      (name, .obj (if name = "aggregations" then laidMap inner else inner)) :: laidFields rest
  | entry :: rest => entry :: laidFields rest

/-- A map of fragments after an injection. -/
def laidMap : List (String × Json) → List (String × Json)
  | [] => []
  | (key, fragment) :: rest =>
      (key, wrapValue scope filter key (laidInside fragment)) :: laidMap rest

end

variable (scope filter) in
/-- The fragment under a key after an injection. -/
def laid (key : String) (fragment : Json) : Json :=
  wrapValue scope filter key (laidInside scope filter fragment)

theorem laidMap_eq_map (map : Fields) :
    laidMap scope filter map =
      map.map fun entry => (entry.1, laid scope filter entry.1 entry.2) := by
  induction map with
  | nil => rfl
  | cons entry rest ih => rw [laidMap, ih, List.map_cons, laid]

theorem get?_laidMap (key : String) (map : Fields) :
    Table.get? key (laidMap scope filter map) =
      (Table.get? key map).map (laid scope filter key) := by
  induction map with
  | nil => rfl
  | cons entry rest ih =>
      obtain ⟨k, fragment⟩ := entry
      rw [laidMap, Table.get?_cons, Table.get?_cons, ih]
      split
      next heq => rw [← heq, Option.map_some, laid]
      next => rfl

section Fields

variable {kind : String} (hkind : kind ≠ "aggregations") (body : Json)
include hkind

theorem laidFields_singleton : laidFields scope filter [(kind, body)] = [(kind, body)] := by
  cases body <;> simp [laidFields, hkind]

theorem laidInside_leaf :
    laidInside scope filter (.obj [(kind, body)]) = .obj [(kind, body)] := by
  rw [laidInside, laidFields_singleton hkind]

theorem laidInside_branch (inner : Fields) :
    laidInside scope filter (.obj [("aggregations", .obj inner), (kind, body)]) =
      .obj [("aggregations", .obj (laidMap scope filter inner)), (kind, body)] := by
  rw [laidInside, laidFields, if_pos rfl, laidFields_singleton hkind]

theorem countFields_singleton : countFields scope [(kind, body)] = 0 := by
  cases body <;> simp [countFields, hkind]

theorem countInside_leaf : countInside scope (.obj [(kind, body)]) = 0 :=
  countFields_singleton hkind body

theorem countInside_branch (inner : Fields) :
    countInside scope (.obj [("aggregations", .obj inner), (kind, body)]) =
      countMap scope inner := by
  rw [countInside, countFields, if_pos rfl, countFields_singleton hkind, Nat.add_zero]

end Fields

/-! ## Walks through regular fragments -/

theorem kind_eq_of_isNestedAt {kind : String} {body : Json}
    (hnested : isNestedAt scope (.obj [(kind, body)]) = true) : kind = "nested" := by
  by_contra hne
  simp [isNestedAt, nestedAt, at?, get?, Table.get?, hne] at hnested

/-- The new layer of a leaf holds nothing but the filter. -/
theorem wrapValue_leaf {body : Json}
    (hnested : isNestedAt scope (.obj [("nested", body)]) = true) (key : String) :
    wrapValue scope filter key (.obj [("nested", body)]) =
      .obj [("aggregations", .obj [(key ++ "_filter", .obj [("filter", filter)])]),
        ("nested", body)] := by
  rw [isNestedAt] at hnested
  rw [wrapValue, if_pos hnested]
  rfl

theorem childrenQuiet_layer (hfilter : Quiet scope filter) (key : String) :
    ChildrenQuiet scope (.obj [(key ++ "_filter", .obj [("filter", filter)])]) where
  quiet := by
    refine (quiet_obj_iff scope _).mpr ⟨nothingToWrap_singleton (filterKey_ne key) _, ?_⟩
    refine List.forall_mem_singleton.mpr ((quiet_obj_iff scope _).mpr
      ⟨nothingToWrap_singleton (by decide) _, List.forall_mem_singleton.mpr hfilter⟩)
  noneNested map hmap := by
    cases hmap
    exact List.forall_mem_singleton.mpr rfl

/-- A leaf has nothing more to wrap, whether it has got a layer or not. -/
theorem quiet_wrapValue_leaf {kind : String} {body : Json} (hkind : kind ≠ "aggregations")
    (hbody : Quiet scope body) (hfilter : Quiet scope filter) (key : String) :
    Quiet scope (wrapValue scope filter key (.obj [(kind, body)])) := by
  cases hnested : isNestedAt scope (.obj [(kind, body)]) with
  | false =>
      rw [wrapValue_of_not_nested scope filter hnested]
      exact (quiet_obj_iff scope _).mpr
        ⟨nothingToWrap_singleton hkind body, List.forall_mem_singleton.mpr hbody⟩
  | true =>
      have hchildren := childrenQuiet_layer hfilter key
      obtain rfl := kind_eq_of_isNestedAt hnested
      rw [wrapValue_leaf hnested]
      exact (quiet_obj_iff scope _).mpr ⟨hchildren.nothingToWrap _,
        List.forall_mem_cons.mpr ⟨hchildren.quiet, List.forall_mem_singleton.mpr hbody⟩⟩

/-- A layer takes three levels besides those of the filter. -/
theorem depth_wrapValue_leaf (kind : String) (body : Json) (key : String) :
    (wrapValue scope filter key (.obj [(kind, body)])).depth ≤
      (Json.obj [(kind, body)]).depth + filter.depth + 3 := by
  cases hnested : isNestedAt scope (.obj [(kind, body)]) with
  | false =>
      rw [wrapValue_of_not_nested scope filter hnested]
      omega
  | true =>
      obtain rfl := kind_eq_of_isNestedAt hnested
      rw [wrapValue_leaf hnested]
      simp only [depth, depthFields]
      omega

/-- Wrapped entries of a map without one that is called like a map. -/
theorem nothingToWrap_of_ne {map : Fields} (hkeys : ∀ entry ∈ map, entry.1 ≠ "aggregations")
    (count : Nat) : NothingToWrap scope (wrapAll scope filter map count).1 := by
  intro inner hget
  have hmem := Table.mem_of_get? hget
  rw [wrapAll_eq] at hmem
  obtain ⟨entry, hentry, heq⟩ := List.mem_map.mp hmem
  exact absurd (Prod.mk.inj heq).1 (hkeys entry hentry)

/-- Walking around a map of fragments that are walked as they should. -/
theorem walk_laidMap {inner : Fields} (hkeys : ∀ entry ∈ inner, entry.1 ≠ "aggregations")
    {kind : String} {body : Json} (hbody : Quiet scope body) {allowance : Nat}
    (hdepth : body.depth ≤ allowance + 1)
    (hwalk : ∀ entry ∈ inner, ∀ count,
      walk (injector scope filter) allowance (wrapValue scope filter entry.1 entry.2) count =
        some (laid scope filter entry.1 entry.2, count + countInside scope entry.2))
    (count : Nat) :
    walk (injector scope filter) (allowance + 2)
      (.obj [("aggregations", .obj inner), (kind, body)]) count =
        some (.obj [("aggregations", .obj (laidMap scope filter inner)), (kind, body)],
          count + countMap scope inner) := by
  rw [laidMap_eq_map, countMap_eq]
  exact walk_branch_self hbody hdepth (nothingToWrap_of_ne hkeys count) hwalk

/-- Walking around a layer that is walked as it should. -/
theorem walk_layerOver {children walked : Json} {weight allowance : Nat}
    (hwalk : ∀ count,
      walk (injector scope filter) allowance
        (.obj [("aggregations", children), ("filter", filter)]) count =
          some (.obj [("aggregations", walked), ("filter", filter)], count + weight))
    {kind : String} {body : Json} (hbody : Quiet scope body) (hdepth : body.depth ≤ allowance + 1)
    (key : String) (count : Nat) :
    walk (injector scope filter) (allowance + 2)
      (.obj [("aggregations", layerOver key children filter), (kind, body)]) count =
        some (.obj [("aggregations", layerOver key walked filter), (kind, body)],
          count + weight) := by
  have hmap : NothingToWrap scope (wrapAll scope filter
      [(key ++ "_filter", .obj [("aggregations", children), ("filter", filter)])] count).1 :=
    nothingToWrap_of_ne (List.forall_mem_singleton.mpr (filterKey_ne key)) count
  have hentry : ∀ entry ∈
      [(key ++ "_filter", Json.obj [("aggregations", children), ("filter", filter)])],
      ∀ count, walk (injector scope filter) allowance
        (wrapValue scope filter entry.1 entry.2) count =
          some ((fun _ => Json.obj [("aggregations", walked), ("filter", filter)]) entry,
            count + (fun _ => weight) entry) := by
    rw [List.forall_mem_singleton]
    intro count
    rw [wrapValue_of_not_nested scope filter (isNestedAt_layer children filter)]
    exact hwalk count
  rw [layerOver, walk_branch_self hbody hdepth hmap hentry]
  simp [layerOver, isNestedAt_layer]

/-- Three units of allowance for every level are enough to lay a regular fragment,
besides those for the filter and its layer. -/
theorem walk_laid (hfilter : Quiet scope filter) {fragment : Json}
    (hfragment : Regular scope fragment) (key : String) {allowance : Nat}
    (hdepth : 3 * fragment.depth + filter.depth + 3 ≤ allowance) (count : Nat) :
    walk (injector scope filter) allowance (wrapValue scope filter key fragment) count =
      some (laid scope filter key fragment, count + countInside scope fragment) := by
  induction hfragment generalizing key allowance count with
  | @leaf kind body hkind hbody =>
      have hle : (wrapValue scope filter key (.obj [(kind, body)])).depth ≤
          (Json.obj [(kind, body)]).depth + filter.depth + 3 := depth_wrapValue_leaf kind body key
      rw [laid, laidInside_leaf hkind, countInside_leaf hkind]
      exact walk_injector_of_quiet scope filter
        (quiet_wrapValue_leaf hkind hbody hfilter key) (by omega) count
  | @branch inner kind body hkind hbody hkeys _ ih =>
      simp only [depth, depthFields] at hdepth
      -- the fragments inside are two levels further down, and two more below a layer
      obtain ⟨rest, rfl⟩ : ∃ rest, allowance = rest + 4 := ⟨allowance - 4, by omega⟩
      have hinside : ∀ extra, ∀ entry ∈ inner, ∀ count,
          walk (injector scope filter) (rest + extra)
            (wrapValue scope filter entry.1 entry.2) count =
              some (laid scope filter entry.1 entry.2, count + countInside scope entry.2) := by
        intro extra entry hentry count
        have hle := depth_le_depthFields hentry
        exact ih entry hentry entry.1 (by omega) count
      rw [laid, laidInside_branch hkind, countInside_branch hkind]
      cases hnested : isNestedAt scope (.obj [(kind, body)]) with
      | false =>
          have hvalue : ∀ children, isNestedAt scope
              (.obj [("aggregations", children), (kind, body)]) = false := fun children =>
            (isNestedAt_branch children kind body).trans hnested
          rw [wrapValue_of_not_nested scope filter (hvalue _),
            wrapValue_of_not_nested scope filter (hvalue _)]
          exact walk_laidMap hkeys hbody (by omega) (hinside 2) count
      | true =>
          rw [wrapValue_branch hnested, wrapValue_branch hnested]
          exact walk_layerOver (walk_laidMap hkeys hfilter (by omega) (hinside 0)) hbody
            (by omega) key count

/-- An injection into a map of regular fragments puts one layer below every fragment
that is nested at the scope, at any depth, and counts them. -/
theorem injectIntoMap_laidMap (hfilter : Quiet scope filter) {map : Fields}
    (hmap : ∀ entry ∈ map, Regular scope entry.2) :
    injectIntoMap scope filter map = some (laidMap scope filter map, countMap scope map) := by
  have hwalk : ∀ entry ∈ map, ∀ count,
      walk (injector scope filter) (injectionAllowance filter (.obj map))
        (wrapValue scope filter entry.1 entry.2) count =
          some (laid scope filter entry.1 entry.2, count + countInside scope entry.2) := by
    intro entry hentry count
    have hle := depth_le_depthFields hentry
    refine walk_laid hfilter (hmap entry hentry) entry.1 ?_ count
    rw [injectionAllowance, depth]
    omega
  have hsame : (map.map fun entry => (entry.1, entry.2)) = map := List.map_id' map
  have hfields := walkFields_wrapAll_counting hwalk 0
  rw [hsame, Nat.zero_add, ← countMap_eq, ← laidMap_eq_map] at hfields
  exact hfields

end TenderSearch.Tree
