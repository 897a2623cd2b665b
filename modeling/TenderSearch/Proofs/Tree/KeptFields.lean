import TenderSearch.Proofs.Tree.FlatAnswers
import TenderSearch.Proofs.Tree.KeptLeaves

/-!
# Fields that compacting keeps in place

Compacting takes a field of an object away if it is a layer, and puts another value in
its place if a layer beside it holds one. Where neither happens the field stays, and a
path of such fields leads to the same place as before. A path with the key of a layer
in it never leads to an object once the tree has been compacted.
-/

namespace TenderSearch.Tree

open Json

/-! ## Fields -/

/-- Nothing is done to what a value has under a key, or has not: no layer stands under
the key, and no layer has it when it is compacted itself. -/
def FieldKept (key : String) (value : Json) : Prop :=
  ∀ layer inner, isSynthetic layer = true → value.get? layer = some (.obj inner) →
    layer ≠ key ∧ (compact (.obj inner)).get? key = none

theorem fieldKept_of_layersOf {key : String} {fields : Fields}
    (hlayers : ∀ layer ∈ layersOf fields,
      layer.1 ≠ key ∧ (compact (.obj layer.2)).get? key = none) :
    FieldKept key (.obj fields) := by
  intro layer inner hsynthetic hget
  exact hlayers (layer, inner) (mem_layersOf.mpr ⟨hsynthetic, Table.mem_of_get? hget⟩)

theorem get?_compact {key : String} {value : Json} (hvalue : value.WellFormed)
    (hkept : FieldKept key value) :
    (compact value).get? key = (value.get? key).map (compactValue key) := by
  cases value with
  | obj fields =>
      have hlayers : ∀ layer inner, (layer, inner) ∈ layersOf (compactFields fields) →
          layer ≠ key ∧ Table.get? key inner = none := by
        intro layer inner hlayer
        obtain ⟨hsynthetic, hmem⟩ := mem_layersOf.mp hlayer
        obtain ⟨below, hbelow, hcompact⟩ :=
          exists_layer_of_mem_compactFields hvalue hsynthetic hmem
        obtain ⟨hne, hnone⟩ := hkept layer below hsynthetic hbelow
        rw [hcompact] at hnone
        exact ⟨hne, hnone⟩
      have hkey : key ∉ layerKeys (compactFields fields) := by
        rw [layerKeys_eq]
        intro hmem
        obtain ⟨⟨layer, inner⟩, hlayer, rfl⟩ := List.mem_map.mp hmem
        exact (hlayers layer inner hlayer).1 rfl
      have hheld : lastHeld? key (keptLayers [] (layersOf (compactFields fields))) = none := by
        cases hheld : lastHeld? key (keptLayers [] (layersOf (compactFields fields))) with
        | none => rfl
        | some member =>
            obtain ⟨⟨layer, inner⟩, hlayer, hget⟩ := exists_layer_of_lastHeld? hheld
            rw [(hlayers layer inner (mem_of_mem_keptLayers hlayer)).2] at hget
            cases hget
      rw [compact, get?, get?_splice_compactFields hvalue, splicedValue?, if_neg hkey, hheld,
        Option.none_or, get?_compactFields]
      rfl
  | _ => rfl

theorem get?_compact_of_outsideBuckets {key : String} {value : Json} (hvalue : value.WellFormed)
    (hkept : FieldKept key value) (hbuckets : key ≠ "buckets") :
    (compact value).get? key = (value.get? key).map compact := by
  rw [get?_compact hvalue hkept]
  congr 1
  funext member
  rw [compactValue, if_neg hbuckets]

/-! ## Paths -/

/-- Nothing is done to the fields along a path. -/
def PathKept : List String → Json → Prop
  | [], _ => True
  | key :: rest, value =>
      FieldKept key value ∧ ∀ member, value.get? key = some member → PathKept rest member

theorem pathKept_append {first second : List String} {value : Json} :
    PathKept (first ++ second) value ↔
      PathKept first value ∧
        ∀ member, value.at? first = some member → PathKept second member := by
  induction first generalizing value with
  | nil => simp [PathKept, at?]
  | cons key rest ih =>
      rw [List.cons_append, PathKept, PathKept, at?, and_assoc]
      refine and_congr_right fun _ => ?_
      cases value.get? key with
      | none => simp
      | some next => simp [ih]

theorem at?_compact {path : List String} {value : Json} (hvalue : value.WellFormed)
    (hkept : PathKept path value) (hbuckets : "buckets" ∉ path) :
    (compact value).at? path = (value.at? path).map compact := by
  induction path generalizing value with
  | nil => rfl
  | cons key rest ih =>
      obtain ⟨hkey, hrest⟩ := not_or.mp (mt List.mem_cons.mpr hbuckets)
      rw [at?, at?, get?_compact_of_outsideBuckets hvalue hkept.1 (Ne.symm hkey)]
      cases hget : value.get? key with
      | none => rfl
      | some next => exact ih (hvalue.of_get? hget) (hkept.2 next hget) hrest

/-! ## Paths through layers -/

theorem IsFlat.of_get? {key : String} {value member : Json} (hflat : IsFlat value)
    (hget : value.get? key = some member) (hbuckets : key ≠ "buckets") : IsFlat member := by
  cases value with
  | obj fields =>
      exact ((everywhere_obj_iff fields).mp hflat).2 _ (Table.mem_of_get? hget)
        (outsideBuckets_iff.mpr hbuckets)
  | _ => cases hget

theorem isObject_eq_false_of_get? {key : String} {value member : Json} (hflat : IsFlat value)
    (hget : value.get? key = some member) (hkey : isSynthetic key = true) :
    member.isObject = false := by
  cases value with
  | obj fields =>
      cases member with
      | obj inner =>
          have hnot := ((everywhere_obj_iff fields).mp hflat).1 _ _ (Table.mem_of_get? hget)
          rw [hkey] at hnot
          cases hnot
      | _ => rfl
  | _ => cases hget

/-- In a flat tree a path with the key of a layer ends there, and at no object. -/
theorem isObject_eq_false_of_at? {path : List String} {value member : Json} (hflat : IsFlat value)
    (hat : value.at? path = some member) (hbuckets : "buckets" ∉ path)
    (hlayer : path.any isSynthetic = true) : member.isObject = false := by
  induction path generalizing value with
  | nil => cases hlayer
  | cons key rest ih =>
      obtain ⟨hkey, hrest⟩ := not_or.mp (mt List.mem_cons.mpr hbuckets)
      obtain ⟨next, hnext, hat⟩ := Option.bind_eq_some_iff.mp hat
      rw [List.any_cons, Bool.or_eq_true] at hlayer
      rcases hlayer with hsynthetic | hlater
      · have hobject := isObject_eq_false_of_get? hflat hnext hsynthetic
        cases rest with
        | nil =>
            obtain rfl : next = member := Option.some.inj hat
            exact hobject
        | cons later rest =>
            obtain ⟨inner, hinner, -⟩ := Option.bind_eq_some_iff.mp hat
            cases next with
            | obj fields => cases hobject
            | _ => cases hinner
      · exact ih (hflat.of_get? hnext (Ne.symm hkey)) hat hrest hlater

end TenderSearch.Tree
