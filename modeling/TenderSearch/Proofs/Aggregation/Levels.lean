import TenderSearch.Aggregation.Request
import TenderSearch.Proofs.Table.Ascending

/-!
# Levels of requests

A request is a map for the aggregations that are asked for, with a map inside
every terms fragment for the aggregations inside that one. On each level the
last aggregation with a key has its fragment under the key.
-/

namespace TenderSearch.Aggregation

variable (scopes : ScopeList) (defaultSize : Nat)

/-! ## Keys -/

/-- What a kind adds to the name of a field outside of all scopes. Values are
not aggregated. -/
def Kind.suffix? : Kind → Option String
  | .terms => some ""
  | .sum => some "_sum"
  | .top => some "_hits"
  | .histogram => some "_over_time"
  | .value => none

/-- The field of an aggregation with the suffix of its kind; the kind does not
count in a nested scope. -/
def name? (aggregation : Aggregation) : Option String :=
  aggregation.field.bind fun field =>
    match scopes.resolve field with
    | some _ => some field
    | none => aggregation.kind.suffix?.map (field ++ ·)

/-- The key that an aggregation asks for. -/
def key? (aggregation : Aggregation) : Option String :=
  (name? scopes aggregation).map keyOf

/-- The last aggregation of a level that asks for a key. -/
def IsLast (level : List Aggregation) (key : String) (aggregation : Aggregation) : Prop :=
  key? scopes aggregation = some key ∧
    ∃ before after, level = before ++ aggregation :: after ∧
      ∀ later ∈ after, key? scopes later ≠ some key

/-! ## Fragments -/

/-- The key and the fragment that an aggregation asks for. In a nested scope it
is a terms fragment inside of one wrapper, without what is inside the
aggregation; elsewhere it is a fragment of the aggregation's kind, and only a
terms fragment holds what is inside. -/
inductive Emits (aggregation : Aggregation) : String → Json → Prop where
  | wrapped {field scope : String} (hfield : aggregation.field = some field)
      (hscope : scopes.resolve field = some scope) :
      Emits aggregation (keyOf field) (.obj [
        ("aggregations", .obj [(keyOf field ++ "_nested", .obj [
          ("terms", .obj [
            ("field", .str field),
            ("size", Json.ofNat (aggregation.size.getD defaultSize))])])]),
        ("nested", .obj [("path", .str scope)])])
  | terms {field : String} (hfield : aggregation.field = some field)
      (hscope : scopes.resolve field = none) (hkind : aggregation.kind = .terms)
      (hchildren : aggregation.children = []) :
      Emits aggregation (keyOf field) (.obj [
        ("terms", .obj [
          ("field", .str field),
          ("size", Json.ofNat (aggregation.size.getD defaultSize))])])
  | termsOver {field : String} (hfield : aggregation.field = some field)
      (hscope : scopes.resolve field = none) (hkind : aggregation.kind = .terms)
      (hchildren : aggregation.children ≠ []) :
      Emits aggregation (keyOf field) (.obj [
        ("aggregations", .obj (request scopes defaultSize aggregation.children)),
        ("terms", .obj [
          ("field", .str field),
          ("size", Json.ofNat (aggregation.size.getD defaultSize))])])
  | sum {field : String} (hfield : aggregation.field = some field)
      (hscope : scopes.resolve field = none) (hkind : aggregation.kind = .sum) :
      Emits aggregation (keyOf field ++ "_sum") (.obj [("sum", .obj [("field", .str field)])])
  | top {field : String} (hfield : aggregation.field = some field)
      (hscope : scopes.resolve field = none) (hkind : aggregation.kind = .top) :
      Emits aggregation (keyOf field ++ "_hits") (.obj [
        ("top_hits", .obj [
          ("_source", .obj [("include", .arr [.str field])]),
          ("size", Json.ofNat 1)])])
  | histogram {field : String} (hfield : aggregation.field = some field)
      (hscope : scopes.resolve field = none) (hkind : aggregation.kind = .histogram) :
      Emits aggregation (keyOf field ++ "_over_time") (.obj [
        ("date_histogram", .obj [("field", .str field), ("interval", .str "year")])])

/-- The map of what is inside an aggregation, if anything is. -/
def innerMap? : List Aggregation → Option Json.Fields
  | [] => none
  | first :: rest => some (request scopes defaultSize (first :: rest))

/-- The entry that an aggregation adds to a map. -/
def placed? (aggregation : Aggregation) : Option (String × Json) :=
  aggregation.field.bind fun field =>
    keyedFragment? scopes field aggregation.kind (aggregation.size.getD defaultSize)
      (innerMap? scopes defaultSize aggregation.children)

variable {scopes defaultSize}

theorem emits_of_placed? {aggregation : Aggregation} {entry : String × Json}
    (hentry : placed? scopes defaultSize aggregation = some entry) :
    Emits scopes defaultSize aggregation entry.1 entry.2 := by
  obtain ⟨field, hfield, hkeyed⟩ := Option.bind_eq_some_iff.mp hentry
  unfold keyedFragment? at hkeyed
  split at hkeyed
  next scope hscope =>
    cases hkeyed
    exact .wrapped hfield hscope
  next hscope =>
    cases hkind : aggregation.kind with
    | terms =>
        rw [hkind] at hkeyed
        cases hkeyed
        cases hchildren : aggregation.children with
        | nil => exact .terms hfield hscope hkind hchildren
        | cons first rest =>
            have hne : aggregation.children ≠ [] := by
              rw [hchildren]
              exact List.cons_ne_nil first rest
            have hemits : Emits scopes defaultSize aggregation _ _ :=
              .termsOver hfield hscope hkind hne
            rw [hchildren] at hemits
            exact hemits
    | sum =>
        rw [hkind] at hkeyed
        cases hkeyed
        exact .sum hfield hscope hkind
    | top =>
        rw [hkind] at hkeyed
        cases hkeyed
        exact .top hfield hscope hkind
    | histogram =>
        rw [hkind] at hkeyed
        cases hkeyed
        exact .histogram hfield hscope hkind
    | value =>
        rw [hkind] at hkeyed
        cases hkeyed

theorem keyOf_append (first second : String) :
    keyOf (first ++ second) = keyOf first ++ keyOf second := by
  apply String.toList_injective
  simp [keyOf]

/-- An aggregation adds an entry if it asks for a key, and under that key. -/
theorem key?_eq (defaultSize : Nat) (aggregation : Aggregation) :
    key? scopes aggregation = (placed? scopes defaultSize aggregation).map Prod.fst := by
  obtain ⟨field?, kind, size, children⟩ := aggregation
  cases field? with
  | none => rfl
  | some field =>
      simp only [key?, name?, placed?, Option.bind_some, keyedFragment?]
      cases scopes.resolve field with
      | some scope => rfl
      | none => cases kind <;> simp [Kind.suffix?, keyOf_append] <;> decide

theorem key?_of_placed? {aggregation : Aggregation} {entry : String × Json}
    (hplaced : placed? scopes defaultSize aggregation = some entry) :
    key? scopes aggregation = some entry.1 := by
  rw [key?_eq defaultSize, hplaced, Option.map_some]

theorem exists_placed?_of_key? (defaultSize : Nat) {aggregation : Aggregation} {key : String}
    (hkey : key? scopes aggregation = some key) :
    ∃ entry, placed? scopes defaultSize aggregation = some entry ∧ entry.1 = key := by
  rw [key?_eq defaultSize] at hkey
  exact Option.map_eq_some_iff.mp hkey

/-! ## Maps -/

theorem addTo_eq_place (map : Json.Fields) (aggregation : Aggregation) :
    addTo scopes defaultSize map aggregation =
      place map (placed? scopes defaultSize aggregation) := by
  obtain ⟨field?, kind, size, children⟩ := aggregation
  cases field? with
  | none => rfl
  | some field => cases children <;> rfl

theorem addAll_eq_extend (map : Json.Fields) (aggregations : List Aggregation) :
    addAll scopes defaultSize map aggregations =
      Table.extend map (aggregations.filterMap (placed? scopes defaultSize)) := by
  induction aggregations generalizing map with
  | nil => rfl
  | cons aggregation rest ih =>
      rw [addAll, ih, addTo_eq_place]
      cases hentry : placed? scopes defaultSize aggregation with
      | none => rw [List.filterMap_cons_none hentry, place]
      | some entry => rw [List.filterMap_cons_some hentry, place, Table.extend]

theorem request_eq_ofList (aggregations : List Aggregation) :
    request scopes defaultSize aggregations =
      Table.ofList (aggregations.filterMap (placed? scopes defaultSize)) :=
  addAll_eq_extend [] aggregations

theorem ascending_request (aggregations : List Aggregation) :
    Table.Ascending (request scopes defaultSize aggregations) := by
  rw [request_eq_ofList]
  exact Table.ascending_ofList _

/-- The entries of a level are those of the last aggregations with their keys. -/
theorem exists_isLast_of_get?_request {level : List Aggregation} {key : String}
    {fragment : Json} (hget : Table.get? key (request scopes defaultSize level) = some fragment) :
    ∃ aggregation, IsLast scopes level key aggregation ∧
      placed? scopes defaultSize aggregation = some (key, fragment) := by
  rw [request_eq_ofList] at hget
  obtain ⟨front, back, hentries, hback⟩ :=
    (Table.exists_last_of_get?_extend hget).resolve_left (by simp)
  obtain ⟨before, rest, rfl, -, hrest⟩ := List.filterMap_eq_append_iff.mp hentries
  obtain ⟨skipped, aggregation, after, rfl, -, hplaced, hafter⟩ :=
    List.filterMap_eq_cons_iff.mp hrest
  refine ⟨aggregation, ⟨key?_of_placed? hplaced, before ++ skipped, after, by simp, ?_⟩, hplaced⟩
  intro later hlater hkey
  obtain ⟨entry, hentry, heq⟩ := exists_placed?_of_key? defaultSize hkey
  refine hback entry ?_ heq
  rw [← hafter]
  exact List.mem_filterMap.mpr ⟨later, hlater, hentry⟩

/-- The last aggregation with a key is determined by its level. -/
theorem IsLast.unique {level : List Aggregation} {key : String} {first second : Aggregation}
    (hfirst : IsLast scopes level key first) (hsecond : IsLast scopes level key second) :
    first = second := by
  obtain ⟨hkey, before, after, rfl, hafter⟩ := hfirst
  obtain ⟨hkey', before', after', heq, hafter'⟩ := hsecond
  rcases List.append_eq_append_iff.mp heq with ⟨between, -, hrest⟩ | ⟨between, -, hrest⟩
  · cases between with
    | nil => exact (List.cons.inj hrest).1
    | cons head tail =>
        -- the second one would stand behind the first
        obtain ⟨rfl, rfl⟩ := List.cons.inj hrest
        exact absurd hkey' (hafter second (by simp))
  · cases between with
    | nil => exact (List.cons.inj hrest).1.symm
    | cons head tail =>
        -- the first one would stand behind the second
        obtain ⟨rfl, rfl⟩ := List.cons.inj hrest
        exact absurd hkey (hafter' first (by simp))

theorem placed?_of_isLast {level : List Aggregation} {key : String} {aggregation : Aggregation}
    (hlast : IsLast scopes level key aggregation) {fragment : Json}
    (hget : Table.get? key (request scopes defaultSize level) = some fragment) :
    placed? scopes defaultSize aggregation = some (key, fragment) := by
  obtain ⟨other, hother, hentry⟩ := exists_isLast_of_get?_request hget
  rw [hlast.unique hother]
  exact hentry

theorem has_request {level : List Aggregation} {aggregation : Aggregation}
    (hmem : aggregation ∈ level) {key : String} (hkey : key? scopes aggregation = some key) :
    Table.has key (request scopes defaultSize level) = true := by
  obtain ⟨entry, hentry, rfl⟩ := exists_placed?_of_key? defaultSize hkey
  rw [request_eq_ofList]
  exact Table.has_extend_of_mem (List.mem_filterMap.mpr ⟨aggregation, hmem, hentry⟩) []

/-! ## Levels -/

/-- The maps of a request and the aggregations that they are for: the request
itself, and the map inside every terms fragment, which is for what is inside
the last aggregation with the fragment's key. -/
inductive Level (scopes : ScopeList) (defaultSize : Nat) (aggregations : List Aggregation) :
    List Aggregation → Json.Fields → Prop where
  | whole : Level scopes defaultSize aggregations aggregations
      (request scopes defaultSize aggregations)
  | inside {level : List Aggregation} {map inner : Json.Fields} {key : String}
      {aggregation : Aggregation} {fragment : Json}
      (houter : Level scopes defaultSize aggregations level map)
      (hlast : IsLast scopes level key aggregation)
      (hget : Table.get? key map = some fragment)
      (hterms : (fragment.get? "terms").isSome = true)
      (hinner : fragment.get? "aggregations" = some (.obj inner)) :
      Level scopes defaultSize aggregations aggregation.children inner

theorem Emits.inner_eq {aggregation : Aggregation} {key : String} {fragment : Json}
    (hemits : Emits scopes defaultSize aggregation key fragment)
    (hterms : (fragment.get? "terms").isSome = true) {inner : Json.Fields}
    (hinner : fragment.get? "aggregations" = some (.obj inner)) :
    inner = request scopes defaultSize aggregation.children := by
  cases hemits with
  | wrapped => cases hterms
  | terms => cases hinner
  | termsOver => exact (Json.obj.inj (Option.some.inj hinner)).symm
  | sum => cases hinner
  | top => cases hinner
  | histogram => cases hinner

/-- Every level is built like a request. -/
theorem Level.eq_request {aggregations level : List Aggregation} {map : Json.Fields}
    (hlevel : Level scopes defaultSize aggregations level map) :
    map = request scopes defaultSize level := by
  induction hlevel with
  | whole => rfl
  | inside _ hlast hget hterms hinner ih =>
      subst ih
      exact (emits_of_placed? (placed?_of_isLast hlast hget)).inner_eq hterms hinner

end TenderSearch.Aggregation
