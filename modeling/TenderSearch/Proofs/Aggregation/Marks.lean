import Mathlib.Data.List.Infix
import TenderSearch.Proofs.Aggregation.Levels
import TenderSearch.Tree.Compaction

/-!
# Keys with the mark of wrapped layers

Fields without the mark of wrapped layers give requests whose keys do not have
it either, because the suffixes of the other kinds start a new word. The key of
the layer inside a wrapper always has it, and not at its start.
-/

namespace TenderSearch

open Aggregation TenderSearch.Tree

/-! ## The mark in texts -/

theorem Tree.occursIn_iff {part text : List Char} : occursIn part text = true ↔ part <:+: text := by
  induction text with
  | nil => rw [occursIn, List.isEmpty_iff, List.infix_nil]
  | cons c rest ih =>
      rw [occursIn, Bool.or_eq_true, List.isPrefixOf_iff_prefix, ih, List.infix_cons_iff]

namespace Aggregation

/-- The characters that the keys of wrapped layers end with. -/
def mark : List Char :=
  nestedSuffix.toList

/-- A key does not have the mark of wrapped layers anywhere. -/
def Unmarked (key : String) : Prop :=
  ¬ mark <:+: key.toList

instance (key : String) : Decidable (Unmarked key) :=
  inferInstanceAs (Decidable (¬ mark <:+: key.toList))

/-- The mark has an underscore only at its start, so it does not reach into a text
from before an underscore. -/
theorem mark_prefix_of_prefix_append {front rest : List Char} (hfront : front ≠ [])
    (hmark : mark <+: front ++ '_' :: rest) : mark <+: front := by
  rcases List.prefix_or_prefix_of_prefix hmark (List.prefix_append front _) with hle | ⟨later, heq⟩
  · exact hle
  · cases later with
    | nil => rw [← heq, List.append_nil]
    | cons c later =>
        rw [← heq, List.prefix_append_right_inj] at hmark
        obtain ⟨rfl, -⟩ := List.cons_prefix_cons.mp hmark
        -- the underscore would be inside of the mark
        have hmem : '_' ∈ mark.tail := by
          rw [← heq, List.tail_append_of_ne_nil hfront]
          exact List.mem_append_right _ List.mem_cons_self
        exact absurd hmem (by decide)

theorem mark_infix_append {front rest : List Char} (hmark : mark <:+: front ++ '_' :: rest) :
    mark <:+: front ∨ mark <:+: '_' :: rest := by
  induction front with
  | nil => exact .inr hmark
  | cons c front ih =>
      rw [List.cons_append, List.infix_cons_iff, ← List.cons_append] at hmark
      rcases hmark with hprefix | hinfix
      · exact .inl (mark_prefix_of_prefix_append (List.cons_ne_nil c front) hprefix).isInfix
      · exact (ih hinfix).imp (List.infix_cons) id

/-! ## Unmarked keys -/

theorem isSynthetic_of_unmarked {key : String} (hkey : Unmarked key) :
    isSynthetic key = false := by
  have hnone : occursIn mark key.toList = false := by
    rw [Bool.eq_false_iff]
    exact mt occursIn_iff.mp hkey
  rw [isSynthetic, ← mark, hnone]
  rfl

/-- Suffixes of kinds start with an underscore and do not have the mark. -/
theorem Unmarked.append {key suffix : String} (hkey : Unmarked key) {rest : List Char}
    (hsuffix : suffix.toList = '_' :: rest) (hunmarked : Unmarked suffix) :
    Unmarked (key ++ suffix) := by
  intro hmark
  rw [String.toList_append, hsuffix] at hmark
  rcases mark_infix_append hmark with hfront | hback
  · exact hkey hfront
  · exact hunmarked (hsuffix ▸ hback)

/-- The key of a wrapped layer names a layer. -/
theorem isSynthetic_layerKey {key : String} (hkey : Unmarked key) (hne : key ≠ "") :
    isSynthetic (key ++ nestedSuffix) = true := by
  have hoccurs : occursIn mark (key ++ nestedSuffix).toList = true := by
    rw [occursIn_iff, String.toList_append]
    exact List.infix_append' key.toList mark []
  have hstart : ¬ mark <+: (key ++ nestedSuffix).toList := by
    intro hprefix
    have hfront : key.toList ≠ [] := fun hnil => hne (String.toList_eq_nil_iff.mp hnil)
    rw [String.toList_append] at hprefix
    exact hkey (mark_prefix_of_prefix_append hfront hprefix).isInfix
  have hnotStart : mark.isPrefixOf (key ++ nestedSuffix).toList = false := by
    rw [Bool.eq_false_iff]
    exact mt List.isPrefixOf_iff_prefix.mp hstart
  rw [isSynthetic, ← mark, hoccurs, hnotStart]
  rfl

/-! ## Keys of requests -/

/-- Every entry of a request is the fragment of an aggregation on a field. -/
theorem exists_keyedFragment?_of_mem_request {scopes : ScopeList} {defaultSize : Nat}
    {aggregations : List Aggregation} {entry : String × Json}
    (hentry : entry ∈ request scopes defaultSize aggregations) :
    ∃ aggregation ∈ aggregations, ∃ field, aggregation.field = some field ∧
      ∃ kind size inner, keyedFragment? scopes field kind size inner = some entry := by
  rw [request_eq_ofList] at hentry
  obtain ⟨aggregation, hmem, hadded⟩ :=
    List.mem_filterMap.mp (Table.mem_of_mem_ofList hentry)
  obtain ⟨field, hfield, hkeyed⟩ := Option.bind_eq_some_iff.mp hadded
  exact ⟨aggregation, hmem, field, hfield, _, _, _, hkeyed⟩

theorem unmarked_of_keyedFragment? {scopes : ScopeList} {field : String} {kind : Kind}
    {size : Nat} {inner : Option Json.Fields} {entry : String × Json}
    (hfield : Unmarked (keyOf field))
    (hentry : keyedFragment? scopes field kind size inner = some entry) : Unmarked entry.1 := by
  unfold keyedFragment? at hentry
  split at hentry
  next => cases hentry; exact hfield
  next =>
    cases kind with
    | terms => cases hentry; exact hfield
    | sum => cases hentry; exact hfield.append rfl (by decide)
    | top => cases hentry; exact hfield.append rfl (by decide)
    | histogram => cases hentry; exact hfield.append rfl (by decide)
    | value => cases hentry

/-- No key of a request has the mark if no key of a field has it. -/
theorem unmarked_of_mem_request {scopes : ScopeList} {defaultSize : Nat}
    {aggregations : List Aggregation}
    (hfields : ∀ aggregation ∈ aggregations, ∀ field, aggregation.field = some field →
      Unmarked (keyOf field))
    {entry : String × Json} (hentry : entry ∈ request scopes defaultSize aggregations) :
    Unmarked entry.1 := by
  obtain ⟨aggregation, hmem, field, hfield, kind, size, inner, hkeyed⟩ :=
    exists_keyedFragment?_of_mem_request hentry
  exact unmarked_of_keyedFragment? (hfields aggregation hmem field hfield) hkeyed

end Aggregation

end TenderSearch
