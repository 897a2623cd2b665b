import TenderSearch.Aggregation.Request

/-!
# The shape of requests

Every entry of a request is a wrapper for a nested scope, a terms fragment with
a map of such entries inside, or a fragment without anything inside. A wrapper's
key has an underscore for a dot of its field, so it is never a word of the query
language, while the keys of the other fragments may be any.
-/

namespace TenderSearch.Aggregation

/-- Fragments with nothing inside. -/
inductive IsLeaf : Json → Prop where
  | terms (field : String) (size : Nat) : IsLeaf (termsFragment field size none)
  | sum (field : String) : IsLeaf (sumFragment field)
  | top (field : String) : IsLeaf (topFragment field)
  | histogram (field : String) : IsLeaf (histogramFragment field)

/-- The fragments of requests under their keys. -/
inductive IsFragment : String → Json → Prop where
  | leaf (key : String) {fragment : Json} (hleaf : IsLeaf fragment) : IsFragment key fragment
  | terms (key field : String) (size : Nat) {inner : Json.Fields}
      (hinner : ∀ entry ∈ inner, IsFragment entry.1 entry.2) :
      IsFragment key (termsFragment field size (some inner))
  | wrapped {key : String} (scope field : String) (size : Nat) (hkey : '_' ∈ key.toList) :
      IsFragment key (wrapped scope field size)

/-- All entries of a map are fragments of requests. -/
def IsRequest (map : Json.Fields) : Prop :=
  ∀ entry ∈ map, IsFragment entry.1 entry.2

theorem underscore_mem_keyOf {scopes : ScopeList} {field scope : String}
    (hscope : scopes.resolve field = some scope) : '_' ∈ (keyOf field).toList := by
  have hcontains : ScopeList.contains scope field = true :=
    List.find?_some (p := fun scope => ScopeList.contains scope field) hscope
  obtain ⟨rest, hfield⟩ := ScopeList.contains_iff.mp hcontains
  rw [keyOf, String.toList_ofList, ← hfield]
  simp

theorem isFragment_of_keyedFragment? {scopes : ScopeList} {field : String} {kind : Kind}
    {size : Nat} {inner : Option Json.Fields} {entry : String × Json}
    (hinner : ∀ map, inner = some map → IsRequest map)
    (hentry : keyedFragment? scopes field kind size inner = some entry) :
    IsFragment entry.1 entry.2 := by
  unfold keyedFragment? at hentry
  split at hentry
  next scope hscope =>
    cases hentry
    exact .wrapped scope field size (underscore_mem_keyOf hscope)
  next =>
    cases kind with
    | terms =>
        cases hentry
        cases inner with
        | none => exact .leaf _ (.terms field size)
        | some map => exact .terms _ field size (hinner map rfl)
    | sum =>
        cases hentry
        exact .leaf _ (.sum field)
    | top =>
        cases hentry
        exact .leaf _ (.top field)
    | histogram =>
        cases hentry
        exact .leaf _ (.histogram field)
    | value => cases hentry

theorem isRequest_nil : IsRequest [] :=
  fun _ hmem => nomatch hmem

theorem IsRequest.place {map : Json.Fields} (hmap : IsRequest map)
    {placed? : Option (String × Json)}
    (hentry : ∀ entry, placed? = some entry → IsFragment entry.1 entry.2) :
    IsRequest (place map placed?) := by
  cases placed? with
  | none => exact hmap
  | some placed =>
      intro entry hmem
      rcases Table.eq_or_mem_of_mem_insert hmem with rfl | hmem
      · exact hentry placed rfl
      · exact hmap entry hmem

mutual

theorem isRequest_addTo (scopes : ScopeList) (defaultSize : Nat) {map : Json.Fields}
    (hmap : IsRequest map) :
    (aggregation : Aggregation) → IsRequest (addTo scopes defaultSize map aggregation)
  | { field := none, .. } => by
      rw [addTo]
      exact hmap
  | { field := some field, kind, size, children } => by
      unfold addTo
      refine hmap.place fun entry hentry => isFragment_of_keyedFragment? ?_ hentry
      intro inner hinner
      -- without children there is no map of fragments inside
      cases children with
      | nil => cases hinner
      | cons first rest =>
          cases hinner
          exact isRequest_addAll scopes defaultSize isRequest_nil (first :: rest)

theorem isRequest_addAll (scopes : ScopeList) (defaultSize : Nat) {map : Json.Fields}
    (hmap : IsRequest map) :
    (aggregations : List Aggregation) → IsRequest (addAll scopes defaultSize map aggregations)
  | [] => hmap
  | aggregation :: rest => by
      rw [addAll]
      exact isRequest_addAll scopes defaultSize
        (isRequest_addTo scopes defaultSize hmap aggregation) rest

end

theorem isRequest_request (scopes : ScopeList) (defaultSize : Nat)
    (aggregations : List Aggregation) : IsRequest (request scopes defaultSize aggregations) :=
  isRequest_addAll scopes defaultSize isRequest_nil aggregations

end TenderSearch.Aggregation
