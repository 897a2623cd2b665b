import TenderSearch.Proofs.Tree.FlatAnswers

/-!
# Keys that stay when answers are compacted

Compacting tells layers by their keys alone. An aggregation on a field whose own
key looks like that of a layer is therefore taken for one, and its answer is spliced
into the object around it. Every other aggregation keeps its key.
-/

namespace TenderSearch

open Json Aggregation

namespace Table

variable {κ α : Type} [DecidableEq κ] {key other : κ} {table : List (κ × α)}

theorem has_erase_of_ne (hne : other ≠ key) :
    has key (erase other table) = has key table := by
  rw [has, has, get?_erase_of_ne hne]

end Table

/-! ## Names of layers among the keys of requests -/

namespace Aggregation

/-- The suffix of a kind does not change whether a key looks like that of a layer. -/
theorem isSynthetic_append {key suffix : String} {rest : List Char}
    (hsuffix : suffix.toList = '_' :: rest) (hunmarked : Unmarked suffix) :
    Tree.isSynthetic (key ++ suffix) = Tree.isSynthetic key := by
  have hoccurs : Tree.occursIn mark (key ++ suffix).toList = Tree.occursIn mark key.toList := by
    rw [Bool.eq_iff_iff, Tree.occursIn_iff, Tree.occursIn_iff, String.toList_append, hsuffix]
    constructor
    · intro hmark
      refine (mark_infix_append hmark).resolve_right ?_
      rw [← hsuffix]
      exact hunmarked
    · intro hmark
      exact hmark.trans (List.prefix_append _ _).isInfix
  have hstart : mark.isPrefixOf (key ++ suffix).toList = mark.isPrefixOf key.toList := by
    rw [Bool.eq_iff_iff, List.isPrefixOf_iff_prefix, List.isPrefixOf_iff_prefix,
      String.toList_append, hsuffix]
    constructor
    · intro hprefix
      apply mark_prefix_of_prefix_append _ hprefix
      -- the mark would stand at the start of the suffix
      intro hempty
      rw [hempty, List.nil_append, ← hsuffix] at hprefix
      exact hunmarked hprefix.isInfix
    · intro hprefix
      exact hprefix.trans (List.prefix_append _ _)
  rw [Tree.isSynthetic, Tree.isSynthetic, ← mark, hoccurs, hstart]

theorem isSynthetic_of_keyedFragment? {scopes : ScopeList} {field : String} {kind : Kind}
    {size : Nat} {inner : Option Json.Fields} {entry : String × Json}
    (hentry : keyedFragment? scopes field kind size inner = some entry) :
    Tree.isSynthetic entry.1 = Tree.isSynthetic (keyOf field) := by
  unfold keyedFragment? at hentry
  split at hentry
  next => cases hentry; rfl
  next =>
    cases kind with
    | terms => cases hentry; rfl
    | sum => cases hentry; exact isSynthetic_append rfl (by decide)
    | top => cases hentry; exact isSynthetic_append rfl (by decide)
    | histogram => cases hentry; exact isSynthetic_append rfl (by decide)
    | value => cases hentry

/-- A key of a request looks like that of a layer if and only if the key of the field
does that the aggregation is on that gives it. -/
theorem exists_emits_of_has_request {scopes : ScopeList} {defaultSize : Nat}
    {aggregations : List Aggregation} {key : String}
    (hkey : Table.has key (request scopes defaultSize aggregations) = true) :
    ∃ aggregation field fragment, IsLast scopes aggregations key aggregation ∧
      aggregation.field = some field ∧ Emits scopes defaultSize aggregation key fragment ∧
      Tree.isSynthetic key = Tree.isSynthetic (keyOf field) := by
  obtain ⟨fragment, hget⟩ := Option.isSome_iff_exists.mp hkey
  obtain ⟨aggregation, hlast, hplaced⟩ := exists_isLast_of_get?_request hget
  obtain ⟨field, hfield, hkeyed⟩ := Option.bind_eq_some_iff.mp hplaced
  exact ⟨aggregation, field, fragment, hlast, hfield, emits_of_placed? hplaced,
    isSynthetic_of_keyedFragment? hkeyed⟩

end Aggregation

/-! ## Splicing -/

namespace Tree

/-- Splicing takes out only the keys that are spliced. -/
theorem has_spliceKeys {keys : List String} {fields : Fields} {key : String}
    (hkey : key ∉ keys) (hhas : Table.has key fields = true) :
    Table.has key (spliceKeys keys fields) = true := by
  induction keys generalizing fields with
  | nil => exact hhas
  | cons layer rest ih =>
      obtain ⟨hne, hrest⟩ := not_or.mp (mt List.mem_cons.mpr hkey)
      have herased : Table.has key (Table.erase layer fields) = true := by
        rw [Table.has_erase_of_ne (Ne.symm hne)]
        exact hhas
      unfold spliceKeys
      split
      next inner _ => exact ih hrest (Table.has_extend herased inner)
      next => exact ih hrest herased

theorem has_splice {fields : Fields} {key : String} (hkey : isSynthetic key = false)
    (hhas : Table.has key fields = true) : Table.has key (splice fields) = true := by
  apply has_spliceKeys _ hhas
  intro hlayer
  rw [(mem_layerKeys.mp hlayer).1] at hkey
  cases hkey

theorem has_compactFields (key : String) (fields : Fields) :
    Table.has key (compactFields fields) = Table.has key fields := by
  rw [Table.has, Table.has, get?_compactFields, Option.isSome_map]

section Requests

variable {scopes : ScopeList} {defaultSize : Nat} {aggregations : List Aggregation}
  {answer : Fields}

/-- Compacting an answer that has the keys of a request keeps every one of them that
does not look like the key of a layer. Under the others there is no object any more.
Which keys these are is settled by the fields of the aggregations that give them. -/
theorem compact_keeps_other_keys
    (hanswer : ∀ key, Table.has key (request scopes defaultSize aggregations) = true →
      Table.has key answer = true) :
    ∃ flat, compact (.obj answer) = .obj flat ∧
      ∀ key, Table.has key (request scopes defaultSize aggregations) = true →
        (isSynthetic key = false → Table.has key flat = true) ∧
        (isSynthetic key = true → ∀ entry, Table.get? key flat ≠ some (.obj entry)) ∧
        ∃ aggregation field fragment, IsLast scopes aggregations key aggregation ∧
          aggregation.field = some field ∧ Emits scopes defaultSize aggregation key fragment ∧
          isSynthetic key = isSynthetic (keyOf field) := by
  refine ⟨splice (compactFields answer), rfl, ?_⟩
  intro key hkey
  refine ⟨?_, ?_, exists_emits_of_has_request hkey⟩
  · intro hother
    apply has_splice hother
    rw [has_compactFields]
    exact hanswer key hkey
  · intro hlayer entry hget
    have hflat := isFlat_compact (.obj answer)
    obtain ⟨hlayers, -⟩ := (everywhere_obj_iff _).mp hflat
    rw [hlayers key entry (Table.mem_of_get? hget)] at hlayer
    cases hlayer

end Requests

/-- An aggregation on the field `is_nested` beside others. -/
def markedAggregations : List Aggregation :=
  [on .terms "is_nested", on .sum "lots.nested.value", on .terms "_nested", on .top "title"]

/-- An answer to them. -/
def markedAnswer : Fields :=
  [("_nested", .obj [("doc_count", Json.ofNat 1)]),
    ("is_nested", .obj [("buckets", .arr [])]),
    ("lots_nested_value", .obj [("doc_count", Json.ofNat 4),
      ("lots_nested_value_nested", .obj [("buckets", .arr [])])]),
    ("title_hits", .obj [("hits", .obj [])])]

theorem has_markedAnswer (key : String) :
    Table.has key markedAnswer = Table.has key (request ["lots"] 5 markedAggregations) := by
  rw [Bool.eq_iff_iff, Table.has_iff_mem_keys, Table.has_iff_mem_keys]
  rfl

/-- The keys of two fields look like those of layers; the mark at the start of a key
and the suffix of a kind do not make it one. -/
theorem compact_keeps_other_keys_marked :
    (∀ key, Table.has key (request ["lots"] 5 markedAggregations) = true →
      Table.has key markedAnswer = true) ∧
    ∃ flat, compact (.obj markedAnswer) = .obj flat ∧
      Table.has "_nested" flat = true ∧ Table.has "title_hits" flat = true ∧
      ∀ entry, Table.get? "lots_nested_value" flat ≠ some (.obj entry) := by
  have hanswer : ∀ key, Table.has key (request ["lots"] 5 markedAggregations) = true →
      Table.has key markedAnswer = true := fun key hkey => has_markedAnswer key ▸ hkey
  obtain ⟨flat, hcompact, hkeys⟩ := compact_keeps_other_keys hanswer
  exact ⟨hanswer, flat, hcompact, (hkeys "_nested" rfl).1 rfl, (hkeys "title_hits" rfl).1 rfl,
    (hkeys "lots_nested_value" rfl).2.1 rfl⟩

/-- Not every key of a request stays: an aggregation on the field `is_nested` is taken
for a layer, and what it holds comes to stand beside the other aggregations. -/
theorem compact_takes_marked_keys_out :
    ¬ ∀ scopes defaultSize aggregations answer,
      (∀ key, Table.has key answer = Table.has key (request scopes defaultSize aggregations)) →
      (∀ entry ∈ answer, entry.2.isObject = true) →
      ∀ flat, compact (.obj answer) = .obj flat →
        ∀ key, Table.has key (request scopes defaultSize aggregations) = true →
          Table.has key flat = true := by
  intro hkept
  have hkeys := hkept ["lots"] 5 markedAggregations markedAnswer has_markedAnswer (by decide) _ rfl
  exact absurd (hkeys "is_nested" rfl) (by decide)

end Tree

end TenderSearch
