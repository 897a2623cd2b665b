import TenderSearch.Proofs.Tree.Reach
import TenderSearch.Proofs.Tree.WalkSteps
import TenderSearch.Tree.Compaction

/-!
# Compacted answers are flat

A tree is flat if no object outside the bucket lists holds a layer. Compacting
makes every tree flat in one pass: an object is spliced after its layers are,
so that what a layer brings along holds no layer any more, and whatever it
replaces was there before.
-/

namespace TenderSearch.Tree

open Json

def outsideBuckets (key : String) : Bool :=
  key != "buckets"

theorem outsideBuckets_iff {key : String} : outsideBuckets key = true ↔ key ≠ "buckets" :=
  bne_iff_ne

def NoLayers (fields : Fields) : Prop :=
  ∀ key inner, (key, .obj inner) ∈ fields → isSynthetic key = false

/-- Splices every object on the way up. -/
def compactor : Visitor Unit where
  enter fields _ := (fields, ())
  descends := outsideBuckets
  leave fields _ := (splice fields, ())

/-- No object outside the bucket lists holds a layer. -/
def IsFlat (tree : Json) : Prop :=
  Everywhere outsideBuckets NoLayers tree

theorem compactItems_eq_map (items : List Json) :
    compactItems items = items.map compact := by
  induction items with
  | nil => rfl
  | cons item rest ih => rw [compactItems, ih, List.map_cons]

def compactValue (key : String) (value : Json) : Json :=
  if key = "buckets" then value else compact value

theorem compactFields_eq_map (fields : Fields) :
    compactFields fields = fields.map fun entry => (entry.1, compactValue entry.1 entry.2) := by
  induction fields with
  | nil => rfl
  | cons entry rest ih => rw [compactFields, ih, List.map_cons, compactValue]

/-- Compacting is the walk that splices every object when it leaves it. -/
theorem walk_compactor {tree : Json} {allowance : Nat} (hdepth : tree.depth ≤ allowance) :
    walk compactor allowance tree () = some (compact tree, ()) := by
  induction tree using Json.memberInduction generalizing allowance with
  | null | bool | num | str => cases allowance <;> rfl
  | arr items ih =>
      rw [depth] at hdepth
      obtain ⟨rest, rfl⟩ := Nat.exists_eq_add_of_lt hdepth
      rw [compact, compactItems_eq_map]
      refine walk_arr_of_walkItems (walkItems_eq_map fun item hitem => ?_)
      have hle := depth_le_depthItems hitem
      exact ih item hitem (by omega)
  | obj fields ih =>
      rw [depth] at hdepth
      obtain ⟨rest, rfl⟩ := Nat.exists_eq_add_of_lt hdepth
      have hentries : ∀ entry ∈ fields, walk compactor (depthFields fields + rest) entry.2 () =
          some (compact entry.2, ()) := by
        intro entry hentry
        have hle := depth_le_depthFields hentry
        exact ih entry hentry (by omega)
      have hvalue : ∀ entry : String × Json, compactValue entry.1 entry.2 =
          if outsideBuckets entry.1 then compact entry.2 else entry.2 := by
        intro entry
        by_cases hkey : entry.1 = "buckets" <;> simp [compactValue, outsideBuckets, hkey]
      rw [compact, compactFields_eq_map]
      simp only [hvalue]
      exact walk_obj_of_walkFields rfl (walkFields_eq_map hentries)

theorem outsideBuckets_of_isSynthetic {key : String} (hkey : isSynthetic key = true) :
    outsideBuckets key = true := by
  rw [outsideBuckets_iff]
  rintro rfl
  exact absurd hkey (by decide)

/-! ## Splicing -/

/-- The keys still to be spliced are those of all the layers, and the layers
themselves hold none. -/
structure Spliceable (keys : List String) (fields : Fields) : Prop where
  synthetic : ∀ key ∈ keys, isSynthetic key = true
  covered : ∀ key inner, (key, .obj inner) ∈ fields → isSynthetic key = true → key ∈ keys
  inner : ∀ key inner, (key, .obj inner) ∈ fields → isSynthetic key = true → NoLayers inner

/-- Fields without layers bring no layer in, so every layer was there before. -/
theorem layer_mem_of_mem_extend {key other : String} {fields inner deeper : Fields}
    (hinner : NoLayers inner)
    (hmem : (other, .obj deeper) ∈ Table.extend (Table.erase key fields) inner)
    (hother : isSynthetic other = true) : (other, .obj deeper) ∈ fields ∧ other ≠ key := by
  rcases Table.mem_or_mem_of_mem_extend hmem with hmem | hmem
  · exact Table.mem_erase.mp hmem
  · rw [hinner other deeper hmem] at hother
    cases hother

theorem Spliceable.extend {key : String} {rest : List String} {fields inner : Fields}
    (h : Spliceable (key :: rest) fields) (hinner : NoLayers inner) :
    Spliceable rest (Table.extend (Table.erase key fields) inner) where
  synthetic other hother := h.synthetic other (List.mem_cons_of_mem _ hother)
  covered other deeper hmem hother := by
    obtain ⟨hmem, hne⟩ := layer_mem_of_mem_extend hinner hmem hother
    exact (List.mem_cons.mp (h.covered other deeper hmem hother)).resolve_left hne
  inner other deeper hmem hother :=
    h.inner other deeper (layer_mem_of_mem_extend hinner hmem hother).1 hother

/-- One step of splicing takes the entry under a key out and puts fields
without layers in. -/
theorem spliceKeys_cons {key : String} {rest : List String} {fields : Fields}
    (h : Spliceable (key :: rest) fields) :
    ∃ inner, NoLayers inner ∧ (inner = [] ∨ (key, .obj inner) ∈ fields) ∧
      spliceKeys (key :: rest) fields =
        spliceKeys rest (Table.extend (Table.erase key fields) inner) := by
  by_cases hobject : ∃ inner, Table.get? key fields = some (.obj inner)
  · obtain ⟨inner, hget⟩ := hobject
    have hmem := Table.mem_of_get? hget
    refine ⟨inner, h.inner key inner hmem (h.synthetic key List.mem_cons_self), .inr hmem, ?_⟩
    rw [spliceKeys, hget]
  · -- an earlier layer has put something else under the key: it is only taken out
    refine ⟨[], fun _ _ hmem => (nomatch hmem), .inl rfl, ?_⟩
    rw [spliceKeys]
    split
    next inner hget => exact absurd ⟨inner, hget⟩ hobject
    next => rfl

theorem noLayers_spliceKeys {keys : List String} {fields : Fields}
    (h : Spliceable keys fields) : NoLayers (spliceKeys keys fields) := by
  induction keys generalizing fields with
  | nil =>
      intro key inner hmem
      -- no key is left, so there is no layer left that a key would have to cover
      cases hkey : isSynthetic key with
      | false => rfl
      | true => exact nomatch h.covered key inner hmem hkey
  | cons key rest ih =>
      obtain ⟨inner, hinner, -, heq⟩ := spliceKeys_cons h
      rw [heq]
      exact ih (h.extend hinner)

/-- Every field of a spliced object was a field of it or of one of its layers. -/
theorem mem_or_mem_layer_of_mem_spliceKeys {keys : List String} {fields : Fields}
    (h : Spliceable keys fields) {entry : String × Json}
    (hentry : entry ∈ spliceKeys keys fields) :
    entry ∈ fields ∨
      ∃ key inner, isSynthetic key = true ∧ (key, .obj inner) ∈ fields ∧ entry ∈ inner := by
  induction keys generalizing fields with
  | nil => exact .inl hentry
  | cons key rest ih =>
      obtain ⟨inner, hinner, hsource, heq⟩ := spliceKeys_cons h
      rw [heq] at hentry
      rcases ih (h.extend hinner) hentry with hmem | ⟨other, deeper, hother, hmem, hdeeper⟩
      · rcases Table.mem_or_mem_of_mem_extend hmem with hmem | hmem
        · exact .inl (Table.mem_erase.mp hmem).1
        · rcases hsource with rfl | hsource
          · exact nomatch hmem
          · exact .inr ⟨key, inner, h.synthetic key List.mem_cons_self, hsource, hmem⟩
      · exact .inr ⟨other, deeper, hother, (layer_mem_of_mem_extend hinner hmem hother).1, hdeeper⟩

theorem mem_layerKeys {fields : Fields} {key : String} :
    key ∈ layerKeys fields ↔
      isSynthetic key = true ∧ ∃ inner, (key, .obj inner) ∈ fields := by
  simp only [layerKeys, List.mem_map, List.mem_filter, Bool.and_eq_true]
  constructor
  · rintro ⟨⟨_, value⟩, ⟨hmem, hkey, hobject⟩, rfl⟩
    cases value with
    | obj inner => exact ⟨hkey, inner, hmem⟩
    | _ => cases hobject
  · rintro ⟨hkey, inner, hmem⟩
    exact ⟨(key, .obj inner), ⟨hmem, hkey, rfl⟩, rfl⟩

/-- An object can be spliced whose layers hold none. -/
theorem spliceable_layerKeys {fields : Fields}
    (hinner : ∀ key inner, (key, .obj inner) ∈ fields → isSynthetic key = true →
      NoLayers inner) : Spliceable (layerKeys fields) fields where
  synthetic _ hkey := (mem_layerKeys.mp hkey).1
  covered _ inner hmem hkey := mem_layerKeys.mpr ⟨hkey, inner, hmem⟩
  inner := hinner

theorem splice_eq_self {fields : Fields} (hfields : NoLayers fields) :
    splice fields = fields := by
  have hkeys : layerKeys fields = [] := by
    refine List.eq_nil_iff_forall_not_mem.mpr fun key hkey => ?_
    obtain ⟨hsynthetic, inner, hmem⟩ := mem_layerKeys.mp hkey
    rw [hfields key inner hmem] at hsynthetic
    cases hsynthetic
  rw [splice, hkeys]
  rfl

/-! ## Compacting -/

/-- Splicing members that are flat gives a flat object. -/
theorem isFlat_splice {fields : Fields}
    (hfields : ∀ entry ∈ fields, outsideBuckets entry.1 = true → IsFlat entry.2) :
    IsFlat (.obj (splice fields)) := by
  have hlayer : ∀ key inner, (key, .obj inner) ∈ fields → isSynthetic key = true →
      NoLayers inner ∧ ∀ entry ∈ inner, outsideBuckets entry.1 = true → IsFlat entry.2 :=
    fun key inner hmem hkey => (everywhere_obj_iff inner).mp
      (hfields (key, .obj inner) hmem (outsideBuckets_of_isSynthetic hkey))
  have hspliceable := spliceable_layerKeys fun key inner hmem hkey => (hlayer key inner hmem hkey).1
  refine (everywhere_obj_iff _).mpr ⟨noLayers_spliceKeys hspliceable, ?_⟩
  -- the members of a spliced object come from the object or from a layer
  intro entry hentry hwalked
  rcases mem_or_mem_layer_of_mem_spliceKeys hspliceable hentry with
    hmem | ⟨key, inner, hkey, hmem, hinner⟩
  · exact hfields entry hmem hwalked
  · exact (hlayer key inner hmem hkey).2 entry hinner hwalked

theorem isFlat_compact (tree : Json) : IsFlat (compact tree) := by
  induction tree using Json.memberInduction with
  | null | bool | num | str =>
      exact everywhere_of_scalar (fun _ heq => nomatch heq) (fun _ heq => nomatch heq)
  | arr items ih =>
      rw [compact, compactItems_eq_map]
      refine (everywhere_arr_iff _).mpr (List.forall_mem_map.mpr ih)
  | obj fields ih =>
      rw [compact, compactFields_eq_map]
      refine isFlat_splice (List.forall_mem_map.mpr ?_)
      intro entry hentry hwalked
      rw [compactValue, if_neg (outsideBuckets_iff.mp hwalked)]
      exact ih entry hentry

theorem compact_eq_self {tree : Json} (hflat : IsFlat tree) : compact tree = tree := by
  induction tree using Json.memberInduction with
  | null | bool | num | str => rfl
  | arr items ih =>
      have hitems := (everywhere_arr_iff items).mp hflat
      rw [compact, compactItems_eq_map, List.map_congr_left fun item hitem =>
        ih item hitem (hitems item hitem), List.map_id']
  | obj fields ih =>
      obtain ⟨hroot, hmembers⟩ := (everywhere_obj_iff fields).mp hflat
      have hfields : ∀ entry ∈ fields, (entry.1, compactValue entry.1 entry.2) = entry := by
        intro entry hentry
        by_cases hkey : entry.1 = "buckets"
        · rw [compactValue, if_pos hkey]
        · rw [compactValue, if_neg hkey,
            ih entry hentry (hmembers entry hentry (outsideBuckets_iff.mpr hkey))]
      rw [compact, compactFields_eq_map, List.map_congr_left hfields, List.map_id',
        splice_eq_self hroot]

/-- One pass makes every tree flat and leaves exactly the flat trees alone, so
a second pass changes nothing. -/
theorem compact_isFlat_and_eq_self_iff (tree : Json) :
    IsFlat (compact tree) ∧ (compact tree = tree ↔ IsFlat tree) ∧
      compact (compact tree) = compact tree := by
  refine ⟨isFlat_compact tree, ⟨?_, compact_eq_self⟩, compact_eq_self (isFlat_compact tree)⟩
  intro heq
  rw [← heq]
  exact isFlat_compact tree

end TenderSearch.Tree
