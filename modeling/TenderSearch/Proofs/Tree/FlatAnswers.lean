import TenderSearch.Proofs.Aggregation.Marks
import TenderSearch.Proofs.Json.WellFormed
import TenderSearch.Proofs.Table.Ascending
import TenderSearch.Proofs.Tree.Flat
import TenderSearch.Proofs.Tree.Layers

/-!
# Flat answers to requests

The answer to a request has one layer in the entry of each nested fragment.
Compacting takes exactly these layers out: what a layer holds comes to stand
directly in the entry around it and wins over what the entry held before.
-/

namespace TenderSearch.Tree

open Json Aggregation

/-! ## Entries with one layer -/

/-- An object that is compacted around one layer: what the layer holds, and under
all other names what the object held. -/
structure IsMerged (layer : String) (entry inner merged : Fields) : Prop where
  ascending : Table.Ascending merged
  get?_eq : ∀ name, Table.get? name merged =
    (Table.get? name inner).or (if name = layer then none else Table.get? name entry)

section Layer

variable {layer : String} {entry inner : Fields}

variable (layer) in
theorem eq_layer_or_mem_erase {key : String} {value : Json} (hmem : (key, value) ∈ entry) :
    key = layer ∨ (key, value) ∈ Table.erase layer entry := by
  by_cases heq : key = layer
  · exact .inl heq
  · exact .inr (Table.mem_erase.mpr ⟨hmem, heq⟩)

theorem isMerged_extend (hentry : Table.Ascending entry) (hinner : Table.Ascending inner) :
    IsMerged layer entry inner (Table.extend (Table.erase layer entry) inner) where
  ascending := (hentry.erase layer).extend inner
  get?_eq name := Table.get?_extend_erase hinner layer name entry

theorem nodup_layerKeys (hentry : Table.Ascending entry) : (layerKeys entry).Nodup :=
  hentry.nodup_keys.sublist (List.filter_sublist.map Prod.fst)

theorem layerKeys_eq_singleton (hentry : Table.Ascending entry)
    (hlayer : isSynthetic layer = true) (hinner : Table.get? layer entry = some (.obj inner))
    (hrest : NoLayers (Table.erase layer entry)) : layerKeys entry = [layer] := by
  have hmem : ∀ key, key ∈ layerKeys entry ↔ key ∈ [layer] := by
    intro key
    rw [mem_layerKeys, List.mem_singleton]
    constructor
    · rintro ⟨hkey, value, hvalue⟩
      rcases eq_layer_or_mem_erase layer hvalue with heq | herased
      · exact heq
      · rw [hrest key value herased] at hkey
        cases hkey
    · rintro rfl
      exact ⟨hlayer, inner, Table.mem_of_get? hinner⟩
  have hperm := (List.perm_ext_iff_of_nodup (nodup_layerKeys hentry)
    (List.pairwise_singleton _ layer)).mpr hmem
  exact List.perm_singleton.mp hperm

/-- An entry with one layer, in which everything is flat already. -/
theorem compact_of_one_layer (hentry : Table.Ascending entry) (hlayer : isSynthetic layer = true)
    (hget : Table.get? layer entry = some (.obj inner)) (hinner : IsFlat (.obj inner))
    (hrest : IsFlat (.obj (Table.erase layer entry))) :
    compact (.obj entry) = .obj (Table.extend (Table.erase layer entry) inner) := by
  obtain ⟨hlayers, hmembers⟩ := (everywhere_obj_iff _).mp hrest
  have hvalues : ∀ part ∈ entry, (part.1, compactValue part.1 part.2) = part := by
    rintro ⟨key, value⟩ hpart
    simp only [compactValue]
    split
    next => rfl
    next hkey =>
      have hflat : IsFlat value := by
        rcases eq_layer_or_mem_erase layer hpart with heq | herased
        · rw [← heq, hentry.get?_of_mem hpart, Option.some.injEq] at hget
          rw [hget]
          exact hinner
        · exact hmembers _ herased (outsideBuckets_iff.mpr hkey)
      rw [compact_eq_self hflat]
  rw [compact, compactFields_eq_map, List.map_congr_left hvalues, List.map_id', splice,
    layerKeys_eq_singleton hentry hlayer hget hlayers, spliceKeys, hget]
  rfl

end Layer

/-! ## Answers -/

/-- An answer has one object for every fragment of a request. The entry of a
nested fragment holds an object under the layer's key, and there are no other
layers outside of bucket lists. -/
structure IsAnswer (request answer : Fields) : Prop where
  keys : ∀ key, Table.has key answer = Table.has key request
  plain : ∀ key fragment, Table.get? key request = some fragment → scopeOf? fragment = none →
    ∃ entry, Table.get? key answer = some (.obj entry) ∧ (key ≠ "buckets" → IsFlat (.obj entry))
  nested : ∀ key fragment scope, Table.get? key request = some fragment →
    scopeOf? fragment = some scope →
    ∃ entry inner, Table.get? key answer = some (.obj entry) ∧
      Table.get? (key ++ nestedSuffix) entry = some (.obj inner) ∧ IsFlat (.obj inner) ∧
      IsFlat (.obj (Table.erase (key ++ nestedSuffix) entry))

theorem get?_compactFields (key : String) (fields : Fields) :
    Table.get? key (compactFields fields) = (Table.get? key fields).map (compactValue key) := by
  induction fields with
  | nil => rfl
  | cons first rest ih =>
      obtain ⟨k, value⟩ := first
      rw [compactFields, Table.get?_cons, Table.get?_cons, ih]
      split
      next heq => rw [← heq, Option.map_some, compactValue]
      next => rfl

theorem underscore_mem_of_scopeOf? {key scope : String} {fragment : Json}
    (hfragment : IsFragment key fragment) (hscope : scopeOf? fragment = some scope) :
    '_' ∈ key.toList := by
  cases hfragment with
  | leaf _ hleaf => cases hleaf <;> cases hscope
  | terms => cases hscope
  | wrapped _ _ _ hkey => exact hkey

section Requests

variable {scopes : ScopeList} {defaultSize : Nat} {aggregations : List Aggregation}
  {answer : Fields}

/-- No key of an answer names a layer, so the answer itself is not spliced. -/
theorem compact_answer_eq
    (hfields : ∀ aggregation ∈ aggregations, ∀ field, aggregation.field = some field →
      Unmarked (keyOf field))
    (hanswer : IsAnswer (request scopes defaultSize aggregations) answer) :
    compact (.obj answer) = .obj (compactFields answer) := by
  have hlayers : NoLayers (compactFields answer) := by
    intro key inner hmem
    rw [compactFields_eq_map] at hmem
    obtain ⟨⟨k, value⟩, hpart, heq⟩ := List.mem_map.mp hmem
    obtain ⟨rfl, -⟩ := Prod.mk.inj heq
    have hhas : Table.has k (request scopes defaultSize aggregations) = true := by
      rw [← hanswer.keys]
      exact Table.has_iff_mem_keys.mpr (List.mem_map_of_mem hpart)
    obtain ⟨fragment, hget⟩ := Option.isSome_iff_exists.mp hhas
    have hunmarked := unmarked_of_mem_request hfields (Table.mem_of_get? hget)
    exact isSynthetic_of_unmarked hunmarked
  rw [compact, splice_eq_self hlayers]

theorem get?_compactFields_of_plain
    (hanswer : IsAnswer (request scopes defaultSize aggregations) answer) {key : String}
    {fragment : Json}
    (hget : Table.get? key (request scopes defaultSize aggregations) = some fragment)
    (hscope : scopeOf? fragment = none) :
    ∃ entry, Table.get? key answer = some (.obj entry) ∧
      Table.get? key (compactFields answer) = some (.obj entry) := by
  obtain ⟨entry, hentry, hflat⟩ := hanswer.plain key fragment hget hscope
  refine ⟨entry, hentry, ?_⟩
  rw [get?_compactFields, hentry, Option.map_some, compactValue]
  split
  next => rfl
  next hkey => rw [compact_eq_self (hflat hkey)]

theorem get?_compactFields_of_nested
    (hfields : ∀ aggregation ∈ aggregations, ∀ field, aggregation.field = some field →
      Unmarked (keyOf field))
    (hform : (Json.obj answer).WellFormed)
    (hanswer : IsAnswer (request scopes defaultSize aggregations) answer) {key scope : String}
    {fragment : Json}
    (hget : Table.get? key (request scopes defaultSize aggregations) = some fragment)
    (hscope : scopeOf? fragment = some scope) :
    ∃ entry inner merged, Table.get? key answer = some (.obj entry) ∧
      Table.get? (key ++ nestedSuffix) entry = some (.obj inner) ∧
      Table.get? key (compactFields answer) = some (.obj merged) ∧
      IsMerged (key ++ nestedSuffix) entry inner merged := by
  obtain ⟨entry, inner, hentry, hlayer, hinner, hrest⟩ :=
    hanswer.nested key fragment scope hget hscope
  have hmem := Table.mem_of_get? hget
  have hunderscore : '_' ∈ key.toList := underscore_mem_of_scopeOf?
    (isRequest_request scopes defaultSize aggregations _ hmem) hscope
  have hempty : key ≠ "" := by
    rintro rfl
    exact absurd hunderscore (by decide)
  have hbuckets : key ≠ "buckets" := by
    rintro rfl
    exact absurd hunderscore (by decide)
  have hentryForm := wellFormed_of_get? hform hentry
  have hinnerForm := wellFormed_of_get? hentryForm hlayer
  rw [WellFormed] at hentryForm hinnerForm
  have hcompact := compact_of_one_layer hentryForm.1
    (isSynthetic_layerKey (unmarked_of_mem_request hfields hmem) hempty) hlayer hinner hrest
  refine ⟨entry, inner, _, hentry, hlayer, ?_, isMerged_extend hentryForm.1 hinnerForm.1⟩
  rw [get?_compactFields, hentry, Option.map_some, compactValue, if_neg hbuckets, hcompact]

/-- If no field's key has the mark of wrapped layers, compacting an answer to a
request keeps its keys. The entry of a nested fragment takes in what its layer
holds, which wins over the rest of the entry, and every other entry stays as it is. -/
theorem compact_answer_to_request
    (hfields : ∀ aggregation ∈ aggregations, ∀ field, aggregation.field = some field →
      Unmarked (keyOf field))
    (hform : (Json.obj answer).WellFormed)
    (hanswer : IsAnswer (request scopes defaultSize aggregations) answer) :
    ∃ flat, compact (.obj answer) = .obj flat ∧ flat.map Prod.fst = answer.map Prod.fst ∧
      ∀ key fragment, Table.get? key (request scopes defaultSize aggregations) = some fragment →
        (scopeOf? fragment = none → ∃ entry, Table.get? key answer = some (.obj entry) ∧
          Table.get? key flat = some (.obj entry)) ∧
        ∀ scope, scopeOf? fragment = some scope → ∃ entry inner merged,
          Table.get? key answer = some (.obj entry) ∧
          Table.get? (key ++ nestedSuffix) entry = some (.obj inner) ∧
          Table.get? key flat = some (.obj merged) ∧
          IsMerged (key ++ nestedSuffix) entry inner merged := by
  refine ⟨compactFields answer, compact_answer_eq hfields hanswer, ?_, ?_⟩
  · rw [compactFields_eq_map, List.map_map]
    rfl
  · intro key fragment hget
    constructor
    · intro hscope
      exact get?_compactFields_of_plain hanswer hget hscope
    · intro scope hscope
      exact get?_compactFields_of_nested hfields hform hanswer hget hscope

end Requests

/-- An answer with a fragment that is called like a bucket list: what looks like a
layer inside of it stays, and so does what looks like one inside of a bucket. -/
def lotAnswer : Fields :=
  [("buckets", .obj [("a_nested", .obj [])]),
    ("lots_value", .obj [
      ("doc_count", Json.ofNat 9),
      ("lots_value_nested", .obj [
        ("buckets", .arr [.obj [("b_nested", .obj [])]]),
        ("doc_count", Json.ofNat 3)])]),
    ("price_sum", .obj [("value", Json.ofNat 7)])]

theorem request_lots :
    request ["lots"] 5 [on .terms "lots.value", on .sum "price", on .terms "buckets"] =
      [("buckets", termsFragment "buckets" 5 none), ("lots_value", wrapped "lots" "lots.value" 5),
        ("price_sum", sumFragment "price")] := rfl

theorem isFlat_of_compact_eq {tree : Json} (heq : compact tree = tree) : IsFlat tree := by
  rw [← heq]
  exact isFlat_compact tree

theorem isAnswer_lotAnswer :
    IsAnswer (request ["lots"] 5 [on .terms "lots.value", on .sum "price", on .terms "buckets"])
      lotAnswer where
  keys key := by
    rw [request_lots, Bool.eq_iff_iff, Table.has_iff_mem_keys, Table.has_iff_mem_keys]
    rfl
  plain key fragment hget hscope := by
    rw [request_lots] at hget
    have hmem := Table.mem_of_get? hget
    simp only [List.mem_cons, Prod.mk.injEq, List.not_mem_nil, or_false] at hmem
    rcases hmem with ⟨rfl, rfl⟩ | ⟨rfl, rfl⟩ | ⟨rfl, rfl⟩
    · exact ⟨_, rfl, fun hne => absurd rfl hne⟩
    · cases hscope
    · exact ⟨_, rfl, fun _ => isFlat_of_compact_eq rfl⟩
  nested key fragment scope hget hscope := by
    rw [request_lots] at hget
    have hmem := Table.mem_of_get? hget
    simp only [List.mem_cons, Prod.mk.injEq, List.not_mem_nil, or_false] at hmem
    rcases hmem with ⟨rfl, rfl⟩ | ⟨rfl, rfl⟩ | ⟨rfl, rfl⟩
    · cases hscope
    · exact ⟨_, _, rfl, rfl, isFlat_of_compact_eq rfl, isFlat_of_compact_eq rfl⟩
    · cases hscope

/-- The buckets of the layer come to stand below the entry, with the layer's count. -/
theorem compact_answer_to_request_lots :
    (∀ aggregation ∈ [on .terms "lots.value", on .sum "price", on .terms "buckets"],
      ∀ field, aggregation.field = some field → Unmarked (keyOf field)) ∧
    (Json.obj lotAnswer).WellFormed ∧
    IsAnswer (request ["lots"] 5 [on .terms "lots.value", on .sum "price", on .terms "buckets"])
      lotAnswer ∧
    ∃ flat, compact (.obj lotAnswer) = .obj flat ∧
      flat.map Prod.fst = ["buckets", "lots_value", "price_sum"] ∧
      ∃ entry inner merged, Table.get? "lots_value" lotAnswer = some (.obj entry) ∧
        Table.get? "lots_value_nested" entry = some (.obj inner) ∧
        Table.get? "lots_value" flat = some (.obj merged) ∧
        IsMerged "lots_value_nested" entry inner merged := by
  have hfields : ∀ aggregation ∈ [on .terms "lots.value", on .sum "price", on .terms "buckets"],
      ∀ field, aggregation.field = some field → Unmarked (keyOf field) := by
    intro aggregation hmem field hfield
    simp only [List.mem_cons, List.not_mem_nil, or_false] at hmem
    rcases hmem with rfl | rfl | rfl
    all_goals
      cases hfield
      decide
  have hform : (Json.obj lotAnswer).WellFormed := by
    simp only [lotAnswer, WellFormed, WellFormedFields, WellFormedItems, Table.Ascending,
      Json.ofNat, Json.ofInt]
    decide
  obtain ⟨flat, hcompact, hkeys, hentries⟩ :=
    compact_answer_to_request hfields hform isAnswer_lotAnswer
  obtain ⟨-, hnested⟩ := hentries "lots_value" _ rfl
  exact ⟨hfields, hform, isAnswer_lotAnswer, flat, hcompact, hkeys, hnested "lots" rfl⟩

end TenderSearch.Tree
