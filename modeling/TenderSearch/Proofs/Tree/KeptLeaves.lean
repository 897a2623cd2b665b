import Mathlib.Tactic.ByContra
import TenderSearch.Proofs.Tree.SplicedLayers

/-!
# Leaves that are kept when answers are compacted

A leaf is a scalar or a whole bucket list, at the end of a path of keys and indices.
Compacting takes the layers out of the paths and does nothing else: every leaf of the
result is a leaf of the tree at a path that becomes its own. Leaves get lost only where
layers share keys with each other or with the object around them.
-/

namespace TenderSearch.Tree

open Json

/-! ## Paths to leaves -/

inductive PathStep where
  | key (name : String)
  | item (index : Nat)
deriving DecidableEq

/-- The member of a value that a step leads to. -/
def member? : PathStep → Json → Option Json
  | .key name, value => value.get? name
  | .item index, value => value.list?.bind fun items => items[index]?

def isScalar : Json → Bool
  | .arr _ => false
  | .obj _ => false
  | _ => true

/-- The leaf at the end of a path. Paths end at scalars, and at bucket lists. -/
def leaf? : List PathStep → Json → Option Json
  | [], value => if isScalar value then some value else none
  | step :: rest, value =>
      (member? step value).bind fun member =>
        if step = .key "buckets" then (if rest = [] then some member else none)
        else leaf? rest member

/-- Whether a step leads to a layer. -/
def isLayerStep : PathStep → Json → Bool
  | .key name, member => isSynthetic name && member.isObject
  | .item _, _ => false

/-- A path without the layers it leads through. -/
def erased : List PathStep → Json → List PathStep
  | [], _ => []
  | step :: rest, value =>
      match member? step value with
      | none => step :: rest
      | some member =>
          if isLayerStep step member then erased rest member else step :: erased rest member

/-- The leaf behind a field: the field itself if it is a bucket list. -/
def leafBehind? (key : String) (rest : List PathStep) (member : Json) : Option Json :=
  if key = "buckets" then (if rest = [] then some member else none) else leaf? rest member

theorem leafBehind?_eq_some {key : String} {rest : List PathStep} {member leaf : Json} :
    leafBehind? key rest member = some leaf ↔
      key = "buckets" ∧ rest = [] ∧ member = leaf ∨
        outsideBuckets key = true ∧ leaf? rest member = some leaf := by
  by_cases hbuckets : key = "buckets" <;> simp [leafBehind?, hbuckets, outsideBuckets_iff]

theorem leaf?_of_scalar {value : Json} (hvalue : isScalar value = true) {path : List PathStep}
    {leaf : Json} : leaf? path value = some leaf ↔ path = [] ∧ leaf = value := by
  cases path with
  | nil => simp [leaf?, hvalue, eq_comm]
  | cons step rest =>
      have hnone : member? step value = none := by
        cases value with
        | arr => cases hvalue
        | obj => cases hvalue
        | _ => cases step <;> rfl
      simp [leaf?, hnone]

theorem leaf?_arr {items : List Json} {path : List PathStep} {leaf : Json} :
    leaf? path (.arr items) = some leaf ↔
      ∃ index rest item, path = .item index :: rest ∧ items[index]? = some item ∧
        leaf? rest item = some leaf := by
  cases path with
  | nil => simp [leaf?, isScalar]
  | cons step rest =>
      cases step with
      | key name => simp [leaf?, member?, get?]
      | item index => simp [leaf?, member?, list?, Option.bind_eq_some_iff]

theorem leaf?_obj {fields : Fields} {path : List PathStep} {leaf : Json} :
    leaf? path (.obj fields) = some leaf ↔
      ∃ key rest member, path = .key key :: rest ∧ Table.get? key fields = some member ∧
        leafBehind? key rest member = some leaf := by
  cases path with
  | nil => simp [leaf?, isScalar]
  | cons step rest =>
      cases step with
      | key name => simp [leaf?, member?, get?, leafBehind?, Option.bind_eq_some_iff]
      | item index => simp [leaf?, member?, list?]

theorem erased_item {items : List Json} {index : Nat} {item : Json}
    (hget : items[index]? = some item) (rest : List PathStep) :
    erased (.item index :: rest) (.arr items) = .item index :: erased rest item := by
  simp [erased, member?, list?, hget, isLayerStep]

theorem erased_field {fields : Fields} {key : String} {member : Json}
    (hget : Table.get? key fields = some member)
    (hlayer : isSynthetic key = true → member.isObject = false) (rest : List PathStep) :
    erased (.key key :: rest) (.obj fields) = .key key :: erased rest member := by
  have hstep : isLayerStep (.key key) member = false := by
    rw [isLayerStep, Bool.and_eq_false_imp]
    exact hlayer
  simp [erased, member?, get?, hget, hstep]

theorem erased_layer {fields inner : Fields} {key : String}
    (hget : Table.get? key fields = some (.obj inner)) (hlayer : isSynthetic key = true)
    (rest : List PathStep) :
    erased (.key key :: rest) (.obj fields) = erased rest (.obj inner) := by
  simp [erased, member?, get?, hget, isLayerStep, hlayer, isObject]

/-! ## Leaves of the result -/

/-- A leaf has a source in a tree if it is a leaf there as well, at a path that becomes
its own when the layers are taken out. -/
def HasSource (tree : Json) (path : List PathStep) (leaf : Json) : Prop :=
  ∃ source, leaf? source tree = some leaf ∧ erased source tree = path

section Fields

variable {fields : Fields} {key : String} {rest : List PathStep} {member leaf : Json}

/-- A field of the object itself: it is no layer, since it has stayed. -/
theorem hasSource_of_field (hget : Table.get? key fields = some member)
    (hlayer : isSynthetic key = true → member.isObject = false)
    (hsource : ∀ path, leaf? path (compact member) = some leaf → HasSource member path leaf)
    (hleaf : leafBehind? key rest (compactValue key member) = some leaf) :
    HasSource (.obj fields) (.key key :: rest) leaf := by
  rcases leafBehind?_eq_some.mp hleaf with ⟨hbuckets, rfl, rfl⟩ | ⟨hwalked, hbelow⟩
  · refine ⟨[.key key], leaf?_obj.mpr ⟨key, [], member, rfl, hget, ?_⟩, ?_⟩
    · rw [compactValue, if_pos hbuckets]
      exact leafBehind?_eq_some.mpr (.inl ⟨hbuckets, rfl, rfl⟩)
    · rw [erased_field hget hlayer, erased]
  · rw [compactValue, if_neg (outsideBuckets_iff.mp hwalked)] at hbelow
    obtain ⟨source, hfound, herased⟩ := hsource rest hbelow
    refine ⟨.key key :: source, leaf?_obj.mpr ⟨key, source, member, rfl, hget, ?_⟩, ?_⟩
    · exact leafBehind?_eq_some.mpr (.inr ⟨hwalked, hfound⟩)
    · rw [erased_field hget hlayer, herased]

/-- A leaf below a layer has its source there. -/
theorem hasSource_of_layer {layer : String} {inner : Fields} {path : List PathStep}
    (hget : Table.get? layer fields = some (.obj inner)) (hlayer : isSynthetic layer = true)
    (hsource : HasSource (.obj inner) path leaf) : HasSource (.obj fields) path leaf := by
  obtain ⟨source, hfound, herased⟩ := hsource
  refine ⟨.key layer :: source, leaf?_obj.mpr ⟨layer, source, .obj inner, rfl, hget, ?_⟩, ?_⟩
  · exact leafBehind?_eq_some.mpr (.inr ⟨outsideBuckets_of_isSynthetic hlayer, hfound⟩)
  · rw [erased_layer hget hlayer, herased]

end Fields

/-- Where a field of a compacted object comes from: from the object, in which it was no
layer, or from what has become of one of its layers. -/
theorem origin_of_get?_splice {fields : Fields} (hform : (Json.obj fields).WellFormed)
    {key : String} {member : Json}
    (hget : Table.get? key (splice (compactFields fields)) = some member) :
    (∃ original, Table.get? key fields = some original ∧ member = compactValue key original ∧
      (isSynthetic key = true → original.isObject = false)) ∨
    ∃ layer below inner, isSynthetic layer = true ∧ Table.get? layer fields = some (.obj below) ∧
      compact (.obj below) = .obj inner ∧ Table.get? key inner = some member := by
  have hmem := Table.mem_of_get? hget
  rcases mem_or_mem_layer_of_mem_spliceKeys (spliceable_compactFields fields) hmem with
    hown | ⟨layer, inner, hlayer, hinLayer, hheld⟩
  · obtain ⟨original, horiginal, rfl⟩ := exists_field_of_mem_compactFields hform hown
    refine .inl ⟨original, horiginal, rfl, fun hkey => ?_⟩
    -- an object under the key of a layer would still be a layer of the result
    cases original with
    | obj below =>
        have hflat := isFlat_compact (.obj fields)
        obtain ⟨hlayers, -⟩ := (everywhere_obj_iff _).mp hflat
        rw [compactValue_of_isSynthetic hkey] at hmem
        rw [hlayers key _ hmem] at hkey
        cases hkey
    | _ => rfl
  · obtain ⟨below, hbelow, hcompact⟩ := exists_layer_of_mem_compactFields hform hlayer hinLayer
    have hmembers := ((wellFormed_obj_iff _).mp (wellFormed_compactFields hform)).2
    have hinner := ((wellFormed_obj_iff inner).mp (hmembers _ hinLayer)).1
    exact .inr ⟨layer, below, inner, hlayer, hbelow, hcompact, hinner.get?_of_mem hheld⟩

/-- Every leaf of a compacted tree is a leaf of the tree. -/
theorem hasSource_of_leaf?_compact {tree : Json} (hform : tree.WellFormed)
    {path : List PathStep} {leaf : Json} (hleaf : leaf? path (compact tree) = some leaf) :
    HasSource tree path leaf := by
  induction tree using Json.memberInduction generalizing path with
  | null | bool | num | str =>
      obtain ⟨rfl, rfl⟩ := (leaf?_of_scalar rfl).mp hleaf
      exact ⟨[], hleaf, rfl⟩
  | arr items ih =>
      rw [wellFormed_arr_iff] at hform
      rw [compact, compactItems_eq_map] at hleaf
      obtain ⟨index, rest, compacted, rfl, hget, hleaf⟩ := leaf?_arr.mp hleaf
      rw [List.getElem?_map, Option.map_eq_some_iff] at hget
      obtain ⟨item, hget, rfl⟩ := hget
      have hmem := List.mem_of_getElem? hget
      obtain ⟨source, hfound, herased⟩ := ih item hmem (hform item hmem) hleaf
      refine ⟨.item index :: source, leaf?_arr.mpr ⟨index, source, item, rfl, hget, hfound⟩, ?_⟩
      rw [erased_item hget, herased]
  | obj fields ih =>
      obtain ⟨-, hmembers⟩ := (wellFormed_obj_iff fields).mp hform
      obtain ⟨key, rest, member, rfl, hget, hbehind⟩ := leaf?_obj.mp hleaf
      rcases origin_of_get?_splice hform hget with
        ⟨original, horiginal, rfl, hlayer⟩ | ⟨layer, below, inner, hlayer, hbelow, hinner, hheld⟩
      · have hmem := Table.mem_of_get? horiginal
        exact hasSource_of_field horiginal hlayer
          (fun path hleaf => ih _ hmem (hmembers _ hmem) hleaf) hbehind
      · have hmem := Table.mem_of_get? hbelow
        refine hasSource_of_layer hbelow hlayer (ih _ hmem (hmembers _ hmem) ?_)
        rw [hinner]
        exact leaf?_obj.mpr ⟨key, rest, member, rfl, hheld, hbehind⟩

/-! ## Leaves of the tree -/

/-- The layers of an object have no key that the object has or another of them. -/
structure LayersApart (fields : Fields) : Prop where
  object : ∀ layer ∈ layersOf fields, ∀ key ∈ layer.2.map Prod.fst, key ∉ fields.map Prod.fst
  layers : ∀ layer ∈ layersOf fields, ∀ other ∈ layersOf fields, layer.1 ≠ other.1 →
    ∀ key ∈ layer.2.map Prod.fst, key ∉ other.2.map Prod.fst

theorem mem_keys_of_get? {key : String} {fields : Fields} {value : Json}
    (hget : Table.get? key fields = some value) : key ∈ fields.map Prod.fst :=
  List.mem_map_of_mem (Table.mem_of_get? hget)

theorem exists_layer_of_lastHeld? {key : String} {layers : List (String × Fields)} {value : Json}
    (hheld : lastHeld? key layers = some value) :
    ∃ layer ∈ layers, Table.get? key layer.2 = some value := by
  induction layers with
  | nil => cases hheld
  | cons first rest ih =>
      rw [lastHeld?, Option.or_eq_some_iff] at hheld
      rcases hheld with hrest | ⟨-, hfirst⟩
      · obtain ⟨layer, hlayer, hget⟩ := ih hrest
        exact ⟨layer, List.mem_cons_of_mem _ hlayer, hget⟩
      · exact ⟨first, List.mem_cons_self, hfirst⟩

section LayersApart

variable {fields : Fields} {key : String} {value : Json}

theorem LayersApart.noneOverwritten (h : LayersApart fields) :
    NoneOverwritten (layersOf fields) := by
  apply List.pairwise_of_forall_mem_list
  intro earlier hearlier later hlater
  have hkey : later.1 ∈ fields.map Prod.fst := List.mem_map_of_mem (mem_layersOf.mp hlater).2
  rw [Bool.eq_false_iff]
  intro hhas
  exact h.object earlier hearlier later.1 (Table.has_iff_mem_keys.mp hhas) hkey

/-- A field of the object that is no layer stays. -/
theorem LayersApart.mergedValue?_of_field (h : LayersApart fields) (hkey : key ∉ layerKeys fields)
    (hget : Table.get? key fields = some value) : mergedValue? fields key = some value := by
  have hnone : lastHeld? key (layersOf fields) = none := by
    by_contra hheld
    obtain ⟨other, hother⟩ := Option.ne_none_iff_exists'.mp hheld
    obtain ⟨layer, hlayer, hheldBy⟩ := exists_layer_of_lastHeld? hother
    exact h.object layer hlayer key (mem_keys_of_get? hheldBy) (mem_keys_of_get? hget)
  rw [mergedValue?, hnone, if_neg hkey, hget, Option.none_or]

/-- What a layer holds is put into the object. -/
theorem LayersApart.mergedValue?_of_layer (h : LayersApart fields)
    (hfields : Table.Ascending fields) {layer : String × Fields}
    (hlayer : layer ∈ layersOf fields) (hget : Table.get? key layer.2 = some value) :
    mergedValue? fields key = some value := by
  have hhas : Table.has key layer.2 = true := by rw [Table.has, hget, Option.isSome_some]
  obtain ⟨last, hlast⟩ := Option.isSome_iff_exists.mp (isSome_lastHeld? hlayer hhas)
  obtain ⟨other, hother, hheldBy⟩ := exists_layer_of_lastHeld? hlast
  -- the last layer with the key is the only one
  have hsame : layer.1 = other.1 := by
    by_contra hne
    exact h.layers layer hlayer other hother hne key (mem_keys_of_get? hget)
      (mem_keys_of_get? hheldBy)
  have hinner : layer.2 = other.2 := by
    have hlayerMem := (ascending_layersOf hfields).get?_of_mem hlayer
    have hotherMem := (ascending_layersOf hfields).get?_of_mem hother
    rw [hsame, hotherMem, Option.some.injEq] at hlayerMem
    exact hlayerMem.symm
  rw [hinner, hheldBy, Option.some.injEq] at hget
  rw [mergedValue?, hlast, hget, Option.some_or]

end LayersApart

section Objects

variable {fields : Fields} (hform : (Json.obj fields).WellFormed)
  (hapart : LayersApart (compactFields fields)) {key : String}
include hform hapart

theorem get?_splice_eq_mergedValue? :
    Table.get? key (splice (compactFields fields)) = mergedValue? (compactFields fields) key := by
  obtain ⟨hascending, -⟩ := (wellFormed_obj_iff _).mp (wellFormed_compactFields hform)
  rw [get?_splice_compactFields hform,
    splicedValue?_of_noneOverwritten hascending hapart.noneOverwritten]

theorem get?_splice_of_field {member : Json} (hget : Table.get? key fields = some member)
    (hlayer : isSynthetic key = true → member.isObject = false) :
    Table.get? key (splice (compactFields fields)) = some (compactValue key member) := by
  have hcompacted : Table.get? key (compactFields fields) = some (compactValue key member) := by
    rw [get?_compactFields, hget, Option.map_some]
  have hnot : key ∉ layerKeys (compactFields fields) := by
    intro hkey
    obtain ⟨hsynthetic, inner, hinner⟩ := mem_layerKeys.mp hkey
    obtain ⟨below, hbelow, -⟩ := exists_layer_of_mem_compactFields hform hsynthetic hinner
    obtain rfl : member = .obj below := Option.some.inj (hget.symm.trans hbelow)
    cases hlayer hsynthetic
  rw [get?_splice_eq_mergedValue? hform hapart]
  exact hapart.mergedValue?_of_field hnot hcompacted

theorem get?_splice_of_layer {layer : String} {below inner : Fields} {value : Json}
    (hlayer : isSynthetic layer = true) (hget : Table.get? layer fields = some (.obj below))
    (hinner : compact (.obj below) = .obj inner) (hheld : Table.get? key inner = some value) :
    Table.get? key (splice (compactFields fields)) = some value := by
  obtain ⟨hascending, -⟩ := (wellFormed_obj_iff _).mp (wellFormed_compactFields hform)
  have hcompacted : Table.get? layer (compactFields fields) = some (.obj inner) := by
    rw [get?_compactFields, hget, Option.map_some, compactValue_of_isSynthetic hlayer, hinner]
  rw [get?_splice_eq_mergedValue? hform hapart]
  exact hapart.mergedValue?_of_layer hascending
    (mem_layersOf.mpr ⟨hlayer, Table.mem_of_get? hcompacted⟩) hheld

end Objects

/-- The leaf behind a field is kept if the leaves of its value are. -/
theorem leafBehind?_erased {key : String} {rest : List PathStep} {member leaf : Json}
    (hkept : outsideBuckets key = true → leaf? rest member = some leaf →
      leaf? (erased rest member) (compact member) = some leaf)
    (hleaf : leafBehind? key rest member = some leaf) :
    leafBehind? key (erased rest member) (compactValue key member) = some leaf := by
  rcases leafBehind?_eq_some.mp hleaf with ⟨hbuckets, rfl, rfl⟩ | ⟨hwalked, hbelow⟩
  · rw [compactValue, if_pos hbuckets, erased]
    exact hleaf
  · rw [compactValue, if_neg (outsideBuckets_iff.mp hwalked)]
    exact leafBehind?_eq_some.mpr (.inr ⟨hwalked, hkept hwalked hbelow⟩)

/-- Every leaf stays that is not in the way of another one. -/
theorem leaf?_erased_compact {tree : Json} (hform : tree.WellFormed)
    (hapart : Everywhere outsideBuckets (fun fields => LayersApart (compactFields fields)) tree)
    {source : List PathStep} {leaf : Json} (hleaf : leaf? source tree = some leaf) :
    leaf? (erased source tree) (compact tree) = some leaf := by
  induction tree using Json.memberInduction generalizing source with
  | null | bool | num | str =>
      obtain ⟨rfl, rfl⟩ := (leaf?_of_scalar rfl).mp hleaf
      exact hleaf
  | arr items ih =>
      rw [wellFormed_arr_iff] at hform
      rw [everywhere_arr_iff] at hapart
      obtain ⟨index, rest, item, rfl, hget, hleaf⟩ := leaf?_arr.mp hleaf
      have hmem := List.mem_of_getElem? hget
      rw [erased_item hget, compact, compactItems_eq_map]
      refine leaf?_arr.mpr ⟨index, _, compact item, rfl, ?_,
        ih item hmem (hform item hmem) (hapart item hmem) hleaf⟩
      rw [List.getElem?_map, hget, Option.map_some]
  | obj fields ih =>
      obtain ⟨hroot, hmembersApart⟩ := (everywhere_obj_iff fields).mp hapart
      obtain ⟨-, hmembers⟩ := (wellFormed_obj_iff fields).mp hform
      obtain ⟨key, rest, member, rfl, hget, hbehind⟩ := leaf?_obj.mp hleaf
      have hmem := Table.mem_of_get? hget
      have hkept : outsideBuckets key = true → leaf? rest member = some leaf →
          leaf? (erased rest member) (compact member) = some leaf := fun hwalked hleaf =>
        ih _ hmem (hmembers _ hmem) (hmembersApart _ hmem hwalked) hleaf
      by_cases hlayer : isSynthetic key = true ∧ member.isObject = true
      · obtain ⟨hkey, hobject⟩ := hlayer
        cases member with
        | obj below =>
            have hwalked := outsideBuckets_of_isSynthetic hkey
            rw [leafBehind?, if_neg (outsideBuckets_iff.mp hwalked)] at hbehind
            -- the next step on the path is a key of the layer, and now one of the object
            obtain ⟨next, later, value, hpath, hnext, hlater⟩ :=
              leaf?_obj.mp (hkept hwalked hbehind)
            rw [erased_layer hget hkey, compact]
            exact leaf?_obj.mpr ⟨next, later, value, hpath,
              get?_splice_of_layer hform hroot hkey hget rfl hnext, hlater⟩
        | _ => cases hobject
      · have hfield : isSynthetic key = true → member.isObject = false := fun hkey => by
          simpa [hkey] using hlayer
        rw [erased_field hget hfield, compact]
        exact leaf?_obj.mpr ⟨key, _, _, rfl, get?_splice_of_field hform hroot hget hfield,
          leafBehind?_erased hkept hbehind⟩

/-- Every leaf of a compacted tree is a leaf of the tree, with the same value and at a
path that becomes its own when the layers are taken out. Conversely every leaf of the
tree is found there, if no object that is visited has a layer, itself compacted, that
shares a key with the object or with another layer of it. -/
theorem compact_keeps_leaves {tree : Json} (hform : tree.WellFormed) :
    (∀ path leaf, leaf? path (compact tree) = some leaf →
      ∃ source, leaf? source tree = some leaf ∧ erased source tree = path) ∧
    (Everywhere outsideBuckets (fun fields => LayersApart (compactFields fields)) tree →
      ∀ source leaf, leaf? source tree = some leaf →
        leaf? (erased source tree) (compact tree) = some leaf) := by
  constructor
  · intro path leaf hleaf
    exact hasSource_of_leaf?_compact hform hleaf
  · intro hapart source leaf hleaf
    exact leaf?_erased_compact hform hapart hleaf

/-- A count two layers deep beside a bucket list, and a null under the key of a layer. -/
def bidAnswer : Json :=
  .arr [.obj [("bids", .obj [
    ("bids_nested_filter", .obj [("bids_nested", .obj [
      ("buckets", .arr [.obj [("a_nested", .obj [])]]), ("doc_count", Json.ofNat 2)])]),
    ("x_nested", .null)])]]

theorem layersApart_bidAnswer :
    Everywhere outsideBuckets (fun fields => LayersApart (compactFields fields)) bidAnswer := by
  simp only [bidAnswer, everywhere_arr_iff, everywhere_obj_iff, List.forall_mem_cons,
    List.not_mem_nil, false_imp_iff, implies_true, and_true]
  refine ⟨⟨by decide, by decide⟩, fun _ => ⟨⟨by decide, by decide⟩, fun _ => ?_, fun _ => ?_⟩⟩
  · refine ⟨⟨by decide, by decide⟩, fun _ => ⟨⟨by decide, by decide⟩, ?_, fun _ => ?_⟩⟩
    · intro hwalked
      cases hwalked
    · exact everywhere_of_scalar (fun _ heq => nomatch heq) (fun _ heq => nomatch heq)
  · exact everywhere_of_scalar (fun _ heq => nomatch heq) (fun _ heq => nomatch heq)

/-- The count and the bucket list come up through both layers, and the null stays. -/
theorem compact_keeps_leaves_bids :
    bidAnswer.WellFormed ∧
    Everywhere outsideBuckets (fun fields => LayersApart (compactFields fields)) bidAnswer ∧
    leaf? [.item 0, .key "bids", .key "doc_count"] (compact bidAnswer) = some (Json.ofNat 2) ∧
    leaf? [.item 0, .key "bids", .key "buckets"] (compact bidAnswer) =
      some (.arr [.obj [("a_nested", .obj [])]]) ∧
    leaf? [.item 0, .key "bids", .key "x_nested"] (compact bidAnswer) = some .null := by
  have hform : bidAnswer.WellFormed := by
    simp only [bidAnswer, WellFormed, WellFormedItems, WellFormedFields, Table.Ascending,
      Json.ofNat, Json.ofInt]
    decide
  obtain ⟨-, hkept⟩ := compact_keeps_leaves hform
  have hleaves := hkept layersApart_bidAnswer
  refine ⟨hform, layersApart_bidAnswer, ?_, ?_, ?_⟩
  · exact hleaves [.item 0, .key "bids", .key "bids_nested_filter", .key "bids_nested",
      .key "doc_count"] _ rfl
  · exact hleaves [.item 0, .key "bids", .key "bids_nested_filter", .key "bids_nested",
      .key "buckets"] _ rfl
  · exact hleaves [.item 0, .key "bids", .key "x_nested"] _ rfl

end TenderSearch.Tree
