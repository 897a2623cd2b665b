import TenderSearch.Proofs.Aggregation.Levels

/-!
# Scoping of requests

What a request aggregates in a nested scope it aggregates inside one wrapper for
that scope, and what it aggregates outside of all scopes stands in no wrapper.
Wrappers do not lie inside each other, on whatever level they stand.
-/

namespace TenderSearch.Aggregation

/-- A fragment aggregates the documents by a field, or reduces them to it. -/
def Aggregates (fragment : Json) (field : String) : Prop :=
  fragment.at? ["terms", "field"] = some (.str field) ∨
  fragment.at? ["sum", "field"] = some (.str field) ∨
  fragment.at? ["date_histogram", "field"] = some (.str field) ∨
  fragment.at? ["top_hits", "_source", "include"] = some (.arr [.str field])

/-- The fragments of a map at any depth, with the scopes of the wrappers around
them, the innermost first. -/
inductive LiesIn (map : Json.Fields) : List String → Json → Prop where
  | whole {entry : String × Json} (hmem : entry ∈ map) : LiesIn map [] entry.2
  | insideWrapper {around : List String} {scope : String} {outer : Json} {inner : Json.Fields}
      {entry : String × Json} (houter : LiesIn map around outer)
      (hscope : outer.at? ["nested", "path"] = some (.str scope))
      (hinner : outer.get? "aggregations" = some (.obj inner)) (hmem : entry ∈ inner) :
      LiesIn map (scope :: around) entry.2
  | inside {around : List String} {outer : Json} {inner : Json.Fields} {entry : String × Json}
      (houter : LiesIn map around outer) (hplain : outer.get? "nested" = none)
      (hinner : outer.get? "aggregations" = some (.obj inner)) (hmem : entry ∈ inner) :
      LiesIn map around entry.2

variable {scopes : ScopeList} {defaultSize : Nat}

/-- The terms fragment inside of a wrapper. -/
def IsWrapped (scopes : ScopeList) (scope : String) (fragment : Json) : Prop :=
  ∃ field size, scopes.resolve field = some scope ∧
    fragment = .obj [("terms", termsBody field size)]

/-- A fragment of some level. -/
def OnLevel (scopes : ScopeList) (defaultSize : Nat) (aggregations : List Aggregation)
    (fragment : Json) : Prop :=
  ∃ level map key aggregation, Level scopes defaultSize aggregations level map ∧
    IsLast scopes level key aggregation ∧ Table.get? key map = some fragment ∧
    Emits scopes defaultSize aggregation key fragment

theorem Level.exists_emits {aggregations level : List Aggregation} {map : Json.Fields}
    (hlevel : Level scopes defaultSize aggregations level map) {key : String} {fragment : Json}
    (hget : Table.get? key map = some fragment) :
    ∃ aggregation, IsLast scopes level key aggregation ∧
      Emits scopes defaultSize aggregation key fragment := by
  rw [hlevel.eq_request] at hget
  obtain ⟨aggregation, hlast, hentry⟩ := exists_isLast_of_get?_request hget
  exact ⟨aggregation, hlast, emits_of_placed? hentry⟩

theorem Level.onLevel {aggregations level : List Aggregation} {map : Json.Fields}
    (hlevel : Level scopes defaultSize aggregations level map) {entry : String × Json}
    (hmem : entry ∈ map) : OnLevel scopes defaultSize aggregations entry.2 := by
  have hget : Table.get? entry.1 map = some entry.2 := by
    rw [hlevel.eq_request] at hmem ⊢
    exact (ascending_request level).get?_of_mem hmem
  obtain ⟨aggregation, hlast, hemits⟩ := hlevel.exists_emits hget
  exact ⟨level, map, entry.1, aggregation, hlevel, hlast, hget, hemits⟩

/-- What a wrapper holds is one terms fragment on a field of its scope. -/
theorem Emits.isWrapped {aggregation : Aggregation} {key : String} {fragment : Json}
    (hemits : Emits scopes defaultSize aggregation key fragment) {scope : String}
    (hscope : fragment.at? ["nested", "path"] = some (.str scope)) {inner : Json.Fields}
    (hinner : fragment.get? "aggregations" = some (.obj inner)) {entry : String × Json}
    (hmem : entry ∈ inner) : IsWrapped scopes scope entry.2 := by
  cases hemits with
  | @wrapped field _ _ hresolve =>
      cases hscope
      cases hinner
      obtain rfl := List.mem_singleton.mp hmem
      exact ⟨field, _, hresolve, rfl⟩
  | terms => cases hscope
  | termsOver => cases hscope
  | sum => cases hscope
  | top => cases hscope
  | histogram => cases hscope

theorem Emits.isSome_terms {aggregation : Aggregation} {key : String} {fragment : Json}
    (hemits : Emits scopes defaultSize aggregation key fragment)
    (hplain : fragment.get? "nested" = none) {inner : Json}
    (hinner : fragment.get? "aggregations" = some inner) :
    (fragment.get? "terms").isSome = true := by
  cases hemits with
  | wrapped => cases hplain
  | terms => rfl
  | termsOver => rfl
  | sum => cases hinner
  | top => cases hinner
  | histogram => cases hinner

/-- A fragment of a request stands on a level and in no wrapper, or is the only
one inside a wrapper that does. -/
theorem LiesIn.onLevel_or_isWrapped {aggregations : List Aggregation} {around : List String}
    {fragment : Json}
    (hlies : LiesIn (request scopes defaultSize aggregations) around fragment) :
    (around = [] ∧ OnLevel scopes defaultSize aggregations fragment) ∨
      ∃ scope, around = [scope] ∧ IsWrapped scopes scope fragment := by
  induction hlies with
  | whole hmem => exact .inl ⟨rfl, Level.whole.onLevel hmem⟩
  | insideWrapper _ hscope hinner hmem ih =>
      rcases ih with ⟨rfl, _, _, _, _, _, _, _, hemits⟩ | ⟨_, rfl, _, _, _, rfl⟩
      · exact .inr ⟨_, rfl, hemits.isWrapped hscope hinner hmem⟩
      · cases hscope
  | inside _ hplain hinner hmem ih =>
      rcases ih with ⟨rfl, _, _, _, _, hlevel, hlast, hget, hemits⟩ | ⟨_, rfl, _, _, _, rfl⟩
      · have hterms := hemits.isSome_terms hplain hinner
        exact .inl ⟨rfl, (hlevel.inside hlast hget hterms hinner).onLevel hmem⟩
      · cases hinner

theorem IsWrapped.resolve_eq {scope : String} {fragment : Json}
    (hwrapped : IsWrapped scopes scope fragment) {field : String}
    (hfield : Aggregates fragment field) : scopes.resolve field = some scope := by
  obtain ⟨own, size, hresolve, rfl⟩ := hwrapped
  rcases hfield with hfield | hfield | hfield | hfield
  · cases hfield
    exact hresolve
  · cases hfield
  · cases hfield
  · cases hfield

theorem Emits.resolve_eq_none {aggregation : Aggregation} {key : String} {fragment : Json}
    (hemits : Emits scopes defaultSize aggregation key fragment) {field : String}
    (hfield : Aggregates fragment field) : scopes.resolve field = none := by
  cases hemits with
  | wrapped => rcases hfield with hfield | hfield | hfield | hfield <;> cases hfield
  | terms _ hscope | termsOver _ hscope | sum _ hscope | top _ hscope | histogram _ hscope =>
      rcases hfield with hfield | hfield | hfield | hfield <;> cases hfield
      exact hscope

/-- On every level of a request the entry under a key is that of the last
aggregation with the key, and every aggregation that asks for a key has an entry
there: in a nested scope a terms fragment inside one wrapper, whatever the kind
and without what is inside the aggregation, and elsewhere a fragment of its
kind. So a field is aggregated inside exactly the wrapper for its scope, or in
none if it has no scope, no wrapper lies inside another, and apart from wrappers
only terms fragments hold other fragments. -/
theorem request_keeps_to_scopes (scopes : ScopeList) (defaultSize : Nat)
    (aggregations : List Aggregation) :
    (∀ level map, Level scopes defaultSize aggregations level map →
      Table.Ascending map ∧
      (∀ entry ∈ map, ∃ aggregation, IsLast scopes level entry.1 aggregation ∧
        Emits scopes defaultSize aggregation entry.1 entry.2) ∧
      ∀ aggregation ∈ level, ∀ key, key? scopes aggregation = some key →
        Table.has key map = true) ∧
    ∀ around fragment, LiesIn (request scopes defaultSize aggregations) around fragment →
      (∀ field, Aggregates fragment field → around = (scopes.resolve field).toList) ∧
      ((fragment.get? "nested").isSome = true → around = []) ∧
      ((fragment.get? "aggregations").isSome = true →
        (fragment.get? "nested").isSome = true ∨ (fragment.get? "terms").isSome = true) := by
  constructor
  · intro level map hlevel
    have hascending : Table.Ascending map := by
      rw [hlevel.eq_request]
      exact ascending_request level
    refine ⟨hascending, ?_, ?_⟩
    · intro entry hmem
      exact hlevel.exists_emits (hascending.get?_of_mem hmem)
    · intro aggregation hmem key hkey
      rw [hlevel.eq_request]
      exact has_request hmem hkey
  · intro around fragment hlies
    rcases hlies.onLevel_or_isWrapped with
      ⟨rfl, _, _, _, _, -, -, -, hemits⟩ | ⟨scope, rfl, hwrapped⟩
    · refine ⟨?_, fun _ => rfl, ?_⟩
      · intro field hfield
        rw [hemits.resolve_eq_none hfield]
        rfl
      · intro hinner
        obtain ⟨inner, hinner⟩ := Option.isSome_iff_exists.mp hinner
        cases hplain : fragment.get? "nested" with
        | none => exact .inr (hemits.isSome_terms hplain hinner)
        | some _ => exact .inl rfl
    · refine ⟨?_, ?_, ?_⟩
      · intro field hfield
        rw [hwrapped.resolve_eq hfield]
        rfl
      · obtain ⟨_, _, _, rfl⟩ := hwrapped
        intro hnested
        cases hnested
      · obtain ⟨_, _, _, rfl⟩ := hwrapped
        intro hinner
        cases hinner

/-- The second aggregation on the country replaces the first one, and the sum of
prices inside of it is wrapped as terms. -/
theorem request_keeps_to_scopes_prices :
    Level ScopeList.standard 5
      [on .terms "country", (on .terms "country").inside (on .sum "lots.bids.price")]
      [on .sum "lots.bids.price"]
      [("lots_bids_price", wrapped "lots.bids" "lots.bids.price" 5)] ∧
    ∃ aggregation,
      IsLast ScopeList.standard [on .sum "lots.bids.price"] "lots_bids_price" aggregation ∧
      Emits ScopeList.standard 5 aggregation "lots_bids_price"
        (wrapped "lots.bids" "lots.bids.price" 5) := by
  have hlast : IsLast ScopeList.standard
      [on .terms "country", (on .terms "country").inside (on .sum "lots.bids.price")] "country"
      ((on .terms "country").inside (on .sum "lots.bids.price")) :=
    ⟨rfl, [on .terms "country"], [], rfl, by simp⟩
  have hlevel : Level ScopeList.standard 5 _ _ _ := Level.whole.inside hlast rfl rfl rfl
  exact ⟨hlevel, ((request_keeps_to_scopes _ _ _).1 _ _ hlevel).2.1 _ List.mem_cons_self⟩

end TenderSearch.Aggregation
