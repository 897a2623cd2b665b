import TenderSearch.Proofs.Tree.KeptKeys

/-!
# What comes out of layers

The layers of an object are spliced into it in the order of their keys, and the last
one that has a key wins. A layer is lost, however, if an earlier one has an entry under
its key: that entry is taken out in its place, and nothing the layer holds is put in.
-/

namespace TenderSearch.Tree

open Json

/-! ## The layers of an object -/

/-- The layers of an object, in the order of their keys. -/
def layersOf (fields : Fields) : List (String × Fields) :=
  fields.filterMap fun (key, value) =>
    if isSynthetic key then value.fields?.map (Prod.mk key) else none

/-- What the last of some layers that has a key holds under it. -/
def lastHeld? (key : String) : List (String × Fields) → Option Json
  | [] => none
  | (_, inner) :: rest => (lastHeld? key rest).or (Table.get? key inner)

/-- What an object should have under a key when its layers are taken out and what they
hold is put in: what the last layer with the key holds, or else what the object held. -/
def mergedValue? (fields : Fields) (key : String) : Option Json :=
  (lastHeld? key (layersOf fields)).or
    (if key ∈ layerKeys fields then none else Table.get? key fields)

/-- No layer has an entry under the key of a later one. -/
def NoneOverwritten (layers : List (String × Fields)) : Prop :=
  layers.Pairwise fun earlier later => Table.has later.1 earlier.2 = false

/-- The layers that are not lost because an earlier one, which is not lost itself, has
an entry under their key. The keys are given that such layers have held so far. -/
def keptLayers (held : List String) : List (String × Fields) → List (String × Fields)
  | [] => []
  | (key, inner) :: rest =>
      if key ∈ held then keptLayers held rest
      else (key, inner) :: keptLayers (held ++ inner.map Prod.fst) rest

def comesBefore (key : String) (layer : String × Fields) : Bool :=
  decide (layer.1 < key)

/-- What an object has under a key when its layers are spliced. Under the key of a layer
it has only what this layer or a later one holds. -/
def splicedValue? (fields : Fields) (key : String) : Option Json :=
  let kept := keptLayers [] (layersOf fields)
  if key ∈ layerKeys fields then lastHeld? key (kept.filter fun layer => !comesBefore key layer)
  else (lastHeld? key kept).or (Table.get? key fields)

theorem layerKeys_eq (fields : Fields) :
    layerKeys fields = (layersOf fields).map Prod.fst := by
  induction fields with
  | nil => rfl
  | cons entry rest ih =>
      obtain ⟨key, value⟩ := entry
      rw [layerKeys] at ih
      cases hkey : isSynthetic key with
      | false => simpa [layerKeys, layersOf, hkey] using ih
      | true =>
          cases value with
          | obj inner => simpa [layerKeys, layersOf, hkey, isObject, fields?] using ih
          | _ => simpa [layerKeys, layersOf, hkey, isObject, fields?] using ih

theorem mem_layersOf {fields : Fields} {key : String} {inner : Fields} :
    (key, inner) ∈ layersOf fields ↔ isSynthetic key = true ∧ (key, .obj inner) ∈ fields := by
  rw [layersOf, List.mem_filterMap]
  constructor
  · rintro ⟨⟨k, value⟩, hmem, heq⟩
    cases value with
    | obj fields =>
        simp only [fields?, Option.map_some, Option.ite_none_right_eq_some, Option.some.injEq,
          Prod.mk.injEq] at heq
        obtain ⟨hkey, rfl, rfl⟩ := heq
        exact ⟨hkey, hmem⟩
    | _ => simp [fields?] at heq
  · rintro ⟨hkey, hmem⟩
    exact ⟨(key, .obj inner), hmem, by simp [hkey, fields?]⟩

theorem ascending_layersOf {fields : Fields} (hfields : Table.Ascending fields) :
    Table.Ascending (layersOf fields) := by
  rw [Table.Ascending, layersOf, List.pairwise_filterMap]
  apply hfields.imp
  rintro ⟨first, value⟩ ⟨second, other⟩ hlt a ha b hb
  cases value <;> cases other <;> simp [fields?] at ha hb
  obtain ⟨-, rfl⟩ := ha
  obtain ⟨-, rfl⟩ := hb
  exact hlt

theorem mem_of_mem_keptLayers {held : List String} {layers : List (String × Fields)}
    {layer : String × Fields} (hlayer : layer ∈ keptLayers held layers) : layer ∈ layers := by
  induction layers generalizing held with
  | nil => exact hlayer
  | cons first rest ih =>
      obtain ⟨key, inner⟩ := first
      unfold keptLayers at hlayer
      split at hlayer
      next => exact List.mem_cons_of_mem _ (ih hlayer)
      next =>
        rcases List.mem_cons.mp hlayer with rfl | hrest
        · exact List.mem_cons_self
        · exact List.mem_cons_of_mem _ (ih hrest)

/-! ## Splicing step by step -/

/-- The layers that are still to be spliced into an object. Each of them is still there
unless an entry of an earlier layer stands in its place, which is no object. -/
structure ToSplice (held : List String) (layers : List (String × Fields)) (fields : Fields) :
    Prop where
  ascending : Table.Ascending layers
  synthetic : ∀ layer ∈ layers, isSynthetic layer.1 = true
  inner : ∀ layer ∈ layers, Table.Ascending layer.2 ∧ NoLayers layer.2
  present : ∀ layer ∈ layers, layer.1 ∉ held →
    Table.get? layer.1 fields = some (.obj layer.2)
  overwritten : ∀ layer ∈ layers, layer.1 ∈ held →
    ∀ inner, Table.get? layer.1 fields ≠ some (.obj inner)

section Steps

variable {held : List String} {key : String} {inner : Fields} {rest : List (String × Fields)}
  {fields : Fields}

theorem ToSplice.ne_of_mem (h : ToSplice held ((key, inner) :: rest) fields)
    {layer : String × Fields} (hlayer : layer ∈ rest) : key ≠ layer.1 :=
  Std.ne_of_lt ((Table.ascending_cons_iff.mp h.ascending).1 layer hlayer)

theorem ToSplice.erase (h : ToSplice held ((key, inner) :: rest) fields) :
    ToSplice held rest (Table.erase key fields) where
  ascending := (Table.ascending_cons_iff.mp h.ascending).2
  synthetic layer hlayer := h.synthetic layer (List.mem_cons_of_mem _ hlayer)
  inner layer hlayer := h.inner layer (List.mem_cons_of_mem _ hlayer)
  present layer hlayer hkept := by
    rw [Table.get?_erase_of_ne (h.ne_of_mem hlayer)]
    exact h.present layer (List.mem_cons_of_mem _ hlayer) hkept
  overwritten layer hlayer hlost := by
    rw [Table.get?_erase_of_ne (h.ne_of_mem hlayer)]
    exact h.overwritten layer (List.mem_cons_of_mem _ hlayer) hlost

/-- A layer without layers replaces later ones only by what is no object. -/
theorem ToSplice.extend (h : ToSplice held ((key, inner) :: rest) fields) :
    ToSplice (held ++ inner.map Prod.fst) rest (Table.extend (Table.erase key fields) inner) where
  ascending := (Table.ascending_cons_iff.mp h.ascending).2
  synthetic layer hlayer := h.synthetic layer (List.mem_cons_of_mem _ hlayer)
  inner layer hlayer := h.inner layer (List.mem_cons_of_mem _ hlayer)
  present layer hlayer hkept := by
    obtain ⟨hheld, hbrought⟩ := not_or.mp (mt List.mem_append.mpr hkept)
    have hnone : Table.get? layer.1 inner = none := by
      simpa [Table.has] using mt Table.has_iff_mem_keys.mp hbrought
    rw [Table.get?_extend_erase (h.inner _ List.mem_cons_self).1, hnone,
      if_neg (h.ne_of_mem hlayer).symm]
    exact h.present layer (List.mem_cons_of_mem _ hlayer) hheld
  overwritten layer hlayer hlost deeper := by
    obtain ⟨hinner, hlayers⟩ := h.inner _ List.mem_cons_self
    rw [Table.get?_extend_erase hinner, if_neg (h.ne_of_mem hlayer).symm]
    cases hget : Table.get? layer.1 inner with
    | some value =>
        intro heq
        have hmem := Table.mem_of_get? hget
        rw [Option.some_or, Option.some.injEq] at heq
        rw [heq] at hmem
        have hsynthetic := h.synthetic layer (List.mem_cons_of_mem _ hlayer)
        rw [hlayers _ _ hmem] at hsynthetic
        cases hsynthetic
    | none =>
        have hheld : layer.1 ∈ held := by
          refine (List.mem_append.mp hlost).resolve_right fun hbrought => ?_
          have hhas := Table.has_iff_mem_keys.mpr hbrought
          rw [Table.has, hget] at hhas
          cases hhas
        exact h.overwritten layer (List.mem_cons_of_mem _ hlayer) hheld deeper

end Steps

theorem comesBefore_eq_false {key : String} {layer : String × Fields} (hle : key ≤ layer.1) :
    comesBefore key layer = false :=
  decide_eq_false (Std.not_lt.mpr hle)

/-- The layers behind one do not come before it. -/
theorem filter_not_comesBefore_eq_self {held : List String} {key : String} {inner : Fields}
    {rest : List (String × Fields)} (hlayers : Table.Ascending ((key, inner) :: rest)) :
    (keptLayers held rest).filter (fun layer => !comesBefore key layer) =
      keptLayers held rest := by
  apply List.filter_eq_self.mpr
  intro layer hlayer
  have hlt := (Table.ascending_cons_iff.mp hlayers).1 layer (mem_of_mem_keptLayers hlayer)
  rw [comesBefore_eq_false (Std.le_of_lt hlt)]
  rfl

theorem get?_spliceKeys {held : List String} {layers : List (String × Fields)} {fields : Fields}
    (h : ToSplice held layers fields) (name : String) :
    Table.get? name (spliceKeys (layers.map Prod.fst) fields) =
      if name ∈ layers.map Prod.fst then
        lastHeld? name ((keptLayers held layers).filter fun layer => !comesBefore name layer)
      else (lastHeld? name (keptLayers held layers)).or (Table.get? name fields) := by
  induction layers generalizing held fields with
  | nil => simp [spliceKeys, keptLayers, lastHeld?]
  | cons first rest ih =>
      obtain ⟨key, inner⟩ := first
      have hbehind : ∀ other ∈ rest.map Prod.fst, key < other := by
        rw [List.forall_mem_map]
        exact (Table.ascending_cons_iff.mp h.ascending).1
      have hself : key ∉ rest.map Prod.fst := fun hmem =>
        Std.ne_of_lt (hbehind key hmem) rfl
      rw [List.map_cons, keptLayers]
      by_cases hheld : key ∈ held
      · -- something else stands under the key by now, and it is only taken out
        have hstep : spliceKeys (key :: rest.map Prod.fst) fields =
            spliceKeys (rest.map Prod.fst) (Table.erase key fields) := by
          rw [spliceKeys]
          split
          next inner hget => exact absurd hget (h.overwritten _ List.mem_cons_self hheld inner)
          next => rfl
        rw [hstep, ih h.erase, if_pos hheld, Table.get?_erase]
        by_cases heq : name = key
        · subst heq
          simp [hself, filter_not_comesBefore_eq_self h.ascending]
        · simp only [List.mem_cons, heq, false_or, if_false]
      · have hget := h.present _ List.mem_cons_self hheld
        rw [spliceKeys, hget]
        simp only
        rw [ih h.extend, if_neg hheld,
          Table.get?_extend_erase (h.inner _ List.mem_cons_self).1]
        by_cases heq : name = key
        · subst heq
          have hnot : comesBefore name (name, inner) = false :=
            comesBefore_eq_false (Std.le_refl name)
          simp [hself, hnot, filter_not_comesBefore_eq_self h.ascending, lastHeld?]
        · by_cases hlater : name ∈ rest.map Prod.fst
          · have hbefore : comesBefore name (key, inner) = true :=
              decide_eq_true (hbehind name hlater)
            simp [hlater, hbefore]
          · simp [heq, hlater, lastHeld?, Option.or_assoc]

/-! ## Objects whose members are compacted -/

theorem ascending_spliceKeys {fields : Fields} (hfields : Table.Ascending fields)
    (keys : List String) : Table.Ascending (spliceKeys keys fields) := by
  induction keys generalizing fields with
  | nil => exact hfields
  | cons key rest ih =>
      unfold spliceKeys
      split
      next inner _ => exact ih ((hfields.erase key).extend inner)
      next => exact ih (hfields.erase key)

theorem ascending_compactFields {fields : Fields} (hfields : Table.Ascending fields) :
    Table.Ascending (compactFields fields) := by
  rw [compactFields_eq_map, Table.Ascending, List.pairwise_map]
  exact hfields

theorem compactValue_of_isSynthetic {key : String} (hkey : isSynthetic key = true)
    (value : Json) : compactValue key value = compact value := by
  rw [compactValue, if_neg (outsideBuckets_iff.mp (outsideBuckets_of_isSynthetic hkey))]

/-- Once the members of an object are compacted, its layers hold none. -/
theorem noLayers_of_mem_compactFields {fields : Fields} {key : String} {inner : Fields}
    (hmem : (key, .obj inner) ∈ compactFields fields) (hkey : isSynthetic key = true) :
    NoLayers inner := by
  rw [compactFields_eq_map] at hmem
  obtain ⟨⟨k, value⟩, -, heq⟩ := List.mem_map.mp hmem
  obtain ⟨rfl, hvalue⟩ := Prod.mk.inj heq
  rw [compactValue_of_isSynthetic hkey] at hvalue
  have hflat := isFlat_compact value
  rw [hvalue] at hflat
  exact ((everywhere_obj_iff inner).mp hflat).1

theorem spliceable_compactFields (fields : Fields) :
    Spliceable (layerKeys (compactFields fields)) (compactFields fields) :=
  spliceable_layerKeys fun _ _ => noLayers_of_mem_compactFields

theorem forall_wellFormed_compactFields {fields : Fields}
    (hmembers : ∀ entry ∈ fields, entry.2.WellFormed)
    (hcompact : ∀ entry ∈ fields, (compact entry.2).WellFormed) :
    ∀ entry ∈ compactFields fields, entry.2.WellFormed := by
  rw [compactFields_eq_map, List.forall_mem_map]
  intro entry hentry
  rw [compactValue]
  split
  next => exact hmembers entry hentry
  next => exact hcompact entry hentry

/-- Compacting keeps the keys of all objects in order. -/
theorem wellFormed_compact {tree : Json} (hform : tree.WellFormed) :
    (compact tree).WellFormed := by
  induction tree using Json.memberInduction with
  | null | bool | num | str => exact hform
  | arr items ih =>
      rw [wellFormed_arr_iff] at hform
      rw [compact, compactItems_eq_map, wellFormed_arr_iff, List.forall_mem_map]
      intro item hitem
      exact ih item hitem (hform item hitem)
  | obj fields ih =>
      obtain ⟨hfields, hmembers⟩ := (wellFormed_obj_iff fields).mp hform
      have hcompacted := forall_wellFormed_compactFields hmembers fun entry hentry =>
        ih entry hentry (hmembers entry hentry)
      rw [compact, wellFormed_obj_iff]
      refine ⟨ascending_spliceKeys (ascending_compactFields hfields) _, ?_⟩
      intro entry hentry
      rcases mem_or_mem_layer_of_mem_spliceKeys (spliceable_compactFields fields) hentry with
        hmem | ⟨key, inner, -, hlayer, hmem⟩
      · exact hcompacted entry hmem
      · exact ((wellFormed_obj_iff inner).mp (hcompacted _ hlayer)).2 entry hmem

theorem wellFormed_compactFields {fields : Fields} (hform : (Json.obj fields).WellFormed) :
    (Json.obj (compactFields fields)).WellFormed := by
  obtain ⟨hfields, hmembers⟩ := (wellFormed_obj_iff fields).mp hform
  have hcompacted := forall_wellFormed_compactFields hmembers fun entry hentry =>
    wellFormed_compact (hmembers entry hentry)
  exact (wellFormed_obj_iff _).mpr ⟨ascending_compactFields hfields, hcompacted⟩

/-- What is in an object whose members are compacted has been there before. -/
theorem exists_field_of_mem_compactFields {fields : Fields} (hform : (Json.obj fields).WellFormed)
    {key : String} {value : Json} (hmem : (key, value) ∈ compactFields fields) :
    ∃ original, Table.get? key fields = some original ∧ value = compactValue key original := by
  have hascending := ((wellFormed_obj_iff _).mp (wellFormed_compactFields hform)).1
  have hget := hascending.get?_of_mem hmem
  rw [get?_compactFields, Option.map_eq_some_iff] at hget
  obtain ⟨original, horiginal, heq⟩ := hget
  exact ⟨original, horiginal, heq.symm⟩

/-- Its layers have been layers before. -/
theorem exists_layer_of_mem_compactFields {fields : Fields} (hform : (Json.obj fields).WellFormed)
    {layer : String} {inner : Fields} (hlayer : isSynthetic layer = true)
    (hmem : (layer, .obj inner) ∈ compactFields fields) :
    ∃ below, Table.get? layer fields = some (.obj below) ∧ compact (.obj below) = .obj inner := by
  obtain ⟨original, horiginal, heq⟩ := exists_field_of_mem_compactFields hform hmem
  rw [compactValue_of_isSynthetic hlayer] at heq
  cases original with
  | obj below => exact ⟨below, horiginal, heq.symm⟩
  | _ => cases heq

theorem toSplice_layersOf {fields : Fields} (hform : (Json.obj fields).WellFormed)
    (hlayers : ∀ key inner, (key, .obj inner) ∈ fields → isSynthetic key = true →
      NoLayers inner) : ToSplice [] (layersOf fields) fields where
  ascending := ascending_layersOf ((wellFormed_obj_iff fields).mp hform).1
  synthetic layer hlayer := (mem_layersOf.mp hlayer).1
  inner layer hlayer := by
    obtain ⟨hkey, hmem⟩ := mem_layersOf.mp hlayer
    obtain ⟨-, hmembers⟩ := (wellFormed_obj_iff fields).mp hform
    exact ⟨((wellFormed_obj_iff layer.2).mp (hmembers _ hmem)).1, hlayers _ _ hmem hkey⟩
  present layer hlayer _ :=
    ((wellFormed_obj_iff fields).mp hform).1.get?_of_mem (mem_layersOf.mp hlayer).2
  overwritten _ _ hlost := absurd hlost List.not_mem_nil

theorem get?_splice_compactFields {fields : Fields} (hform : (Json.obj fields).WellFormed)
    (key : String) :
    Table.get? key (splice (compactFields fields)) = splicedValue? (compactFields fields) key := by
  have hsplice := toSplice_layersOf (wellFormed_compactFields hform)
    fun key inner hmem hkey => noLayers_of_mem_compactFields hmem hkey
  rw [splice, splicedValue?, layerKeys_eq]
  exact get?_spliceKeys hsplice key

/-! ## Objects in which no layer is lost -/

theorem keptLayers_eq_self {held : List String} {layers : List (String × Fields)}
    (hheld : ∀ layer ∈ layers, layer.1 ∉ held) (hlayers : NoneOverwritten layers) :
    keptLayers held layers = layers := by
  induction layers generalizing held with
  | nil => rfl
  | cons first rest ih =>
      obtain ⟨key, inner⟩ := first
      obtain ⟨hkey, hrest⟩ := List.forall_mem_cons.mp hheld
      obtain ⟨hfirst, hlater⟩ := List.pairwise_cons.mp hlayers
      have hnext : ∀ layer ∈ rest, layer.1 ∉ held ++ inner.map Prod.fst := by
        intro layer hlayer hmem
        rcases List.mem_append.mp hmem with hmem | hmem
        · exact hrest layer hlayer hmem
        · have hhas := Table.has_iff_mem_keys.mpr hmem
          rw [hfirst layer hlayer] at hhas
          cases hhas
      rw [keptLayers, if_neg hkey, ih hnext hlater]

/-- Layers without a key do not matter for it. -/
theorem lastHeld?_filter {key : String} {layers : List (String × Fields)}
    {kept : String × Fields → Bool}
    (hlayers : ∀ layer ∈ layers, kept layer = false → Table.get? key layer.2 = none) :
    lastHeld? key (layers.filter kept) = lastHeld? key layers := by
  induction layers with
  | nil => rfl
  | cons first rest ih =>
      obtain ⟨hfirst, hrest⟩ := List.forall_mem_cons.mp hlayers
      rw [lastHeld?, List.filter_cons]
      cases hkept : kept first with
      | false => simp [ih hrest, hfirst hkept]
      | true => simp [lastHeld?, ih hrest]

theorem isSome_lastHeld? {key : String} {layers : List (String × Fields)}
    {layer : String × Fields} (hlayer : layer ∈ layers) (hhas : Table.has key layer.2 = true) :
    (lastHeld? key layers).isSome = true := by
  induction layers with
  | nil => exact nomatch hlayer
  | cons first rest ih =>
      rw [lastHeld?, Option.isSome_or, Bool.or_eq_true]
      rcases List.mem_cons.mp hlayer with rfl | hrest
      · exact .inr hhas
      · exact .inl (ih hrest)

theorem NoneOverwritten.has_eq_false {layers : List (String × Fields)}
    (hlayers : NoneOverwritten layers) (hascending : Table.Ascending layers)
    {earlier later : String × Fields} (hearlier : earlier ∈ layers) (hlater : later ∈ layers)
    (hlt : earlier.1 < later.1) : Table.has later.1 earlier.2 = false := by
  induction layers with
  | nil => exact nomatch hearlier
  | cons first rest ih =>
      obtain ⟨hfirst, hrest⟩ := List.pairwise_cons.mp hlayers
      obtain ⟨hbehind, hascendingRest⟩ := Table.ascending_cons_iff.mp hascending
      rcases List.mem_cons.mp hearlier with rfl | hinRest
      · rcases List.mem_cons.mp hlater with rfl | hlater
        · exact absurd hlt Std.lt_irrefl
        · exact hfirst later hlater
      · rcases List.mem_cons.mp hlater with rfl | hlater
        · exact absurd (Std.lt_trans hlt (hbehind earlier hinRest)) Std.lt_irrefl
        · exact ih hrest hascendingRest hinRest hlater

theorem splicedValue?_of_noneOverwritten {fields : Fields} (hfields : Table.Ascending fields)
    (hlayers : NoneOverwritten (layersOf fields)) (key : String) :
    splicedValue? fields key = mergedValue? fields key := by
  rw [splicedValue?, mergedValue?, keptLayers_eq_self (fun _ _ => List.not_mem_nil) hlayers]
  by_cases hkey : key ∈ layerKeys fields
  · have hearlier : ∀ layer ∈ layersOf fields, (!comesBefore key layer) = false →
        Table.get? key layer.2 = none := by
      obtain ⟨hsynthetic, inner, hmem⟩ := mem_layerKeys.mp hkey
      intro layer hlayer hbefore
      rw [Bool.not_eq_false'] at hbefore
      have hlt : layer.1 < key := of_decide_eq_true hbefore
      simpa [Table.has] using hlayers.has_eq_false (ascending_layersOf hfields) hlayer
        (mem_layersOf.mpr ⟨hsynthetic, hmem⟩) hlt
    simp [hkey, lastHeld?_filter hearlier]
  · simp [hkey]

/-- What becomes of the layers of an object that is visited, once its members are
compacted. If none has an entry under the key of a later one, all of them leave behind
what they hold, and the last one with a key wins. Otherwise this holds only of those
that are not lost. -/
theorem compact_splices_kept_layers {tree : Json} (hform : tree.WellFormed) {fields : Fields}
    (hvisited : Reached outsideBuckets tree (.obj fields)) :
    ∃ flat, compact (.obj fields) = .obj flat ∧
      (∀ key, Table.get? key flat = splicedValue? (compactFields fields) key) ∧
      (NoneOverwritten (layersOf (compactFields fields)) →
        (∀ key, Table.get? key flat = mergedValue? (compactFields fields) key) ∧
        ∀ layer ∈ layersOf (compactFields fields), ∀ key, Table.has key layer.2 = true →
          Table.has key flat = true) := by
  have hobject := hvisited.wellFormed hform
  have hspliced := get?_splice_compactFields hobject
  refine ⟨splice (compactFields fields), rfl, hspliced, ?_⟩
  intro hlayers
  obtain ⟨hfields, -⟩ := (wellFormed_obj_iff _).mp (wellFormed_compactFields hobject)
  have hmerged : ∀ key, Table.get? key (splice (compactFields fields)) =
      mergedValue? (compactFields fields) key := fun key =>
    (hspliced key).trans (splicedValue?_of_noneOverwritten hfields hlayers key)
  refine ⟨hmerged, ?_⟩
  intro layer hlayer key hhas
  rw [Table.has, hmerged, mergedValue?, Option.isSome_or, isSome_lastHeld? hlayer hhas]
  rfl

/-- Two layers that share a key with each other and with the object around them. The
first holds something under its own key, the second something under the key of the
first that is no object. -/
def sharingLayers : Fields :=
  [("a_nested", .obj [("a_nested", Json.ofNat 1), ("count", Json.ofNat 2)]),
    ("b_nested", .obj [("a_nested", .null), ("count", Json.ofNat 3)]),
    ("count", Json.ofNat 4), ("name", .str "lots")]

/-- The layers of an object inside of another one leave all their keys behind. -/
theorem compact_splices_kept_layers_sharing :
    (Json.obj [("lots", .obj sharingLayers)]).WellFormed ∧
    Reached outsideBuckets (.obj [("lots", .obj sharingLayers)]) (.obj sharingLayers) ∧
    NoneOverwritten (layersOf (compactFields sharingLayers)) ∧
    ∃ flat, compact (.obj sharingLayers) = .obj flat ∧
      Table.get? "a_nested" flat = some .null ∧ Table.get? "b_nested" flat = none ∧
      Table.get? "count" flat = some (Json.ofNat 3) ∧
      Table.get? "name" flat = some (.str "lots") := by
  have hform : (Json.obj [("lots", .obj sharingLayers)]).WellFormed := by
    simp only [sharingLayers, WellFormed, WellFormedFields, Table.Ascending, Json.ofNat, Json.ofInt]
    decide
  have hvisited : Reached outsideBuckets (.obj [("lots", .obj sharingLayers)])
      (.obj sharingLayers) := .field List.mem_cons_self rfl (.here _)
  have hlayers : NoneOverwritten (layersOf (compactFields sharingLayers)) := by
    rw [NoneOverwritten]
    decide
  obtain ⟨flat, hcompact, -, hmerged⟩ := compact_splices_kept_layers hform hvisited
  obtain ⟨hget, -⟩ := hmerged hlayers
  exact ⟨hform, hvisited, hlayers, flat, hcompact, (hget _).trans rfl, (hget _).trans rfl,
    (hget _).trans rfl, (hget _).trans rfl⟩

/-- A layer and an earlier one that has a number under its key. -/
def overwrittenLayer : Fields :=
  [("a_nested", .obj [("b_nested", Json.ofNat 5)]), ("b_nested", .obj [("count", Json.ofNat 1)])]

/-- Not every layer leaves behind what it holds: the number takes the place of the layer
and is taken out instead, and both what the layer holds and the number are lost. -/
theorem compact_loses_overwritten_layer :
    compact (.obj overwrittenLayer) = .obj [] ∧
    ¬ ∀ tree fields, tree.WellFormed → Reached outsideBuckets tree (.obj fields) →
      ∀ flat, compact (.obj fields) = .obj flat →
        ∀ key, Table.get? key flat = mergedValue? (compactFields fields) key := by
  have hlost : compact (.obj overwrittenLayer) = .obj [] := rfl
  refine ⟨hlost, fun hmerged => ?_⟩
  have hform : (Json.obj overwrittenLayer).WellFormed := by
    simp only [overwrittenLayer, WellFormed, WellFormedFields, Table.Ascending, Json.ofNat,
      Json.ofInt]
    decide
  have hcount := hmerged _ _ hform (.here _) _ hlost "count"
  have hheld : mergedValue? (compactFields overwrittenLayer) "count" = some (Json.ofNat 1) := rfl
  rw [hheld] at hcount
  cases hcount

end TenderSearch.Tree
