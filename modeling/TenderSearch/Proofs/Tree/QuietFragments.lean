import TenderSearch.Proofs.Tree.Layers

/-!
# Fragments that an injection leaves alone

The walk of an injection looks into everything: into the leaves of a request,
into the layers of earlier injections, and into the injected filters. Apart from
the wrapping itself it has nothing to do there, as long as the filters are quiet.
-/

namespace TenderSearch.Tree

open Json Aggregation

variable {scope : String}

/-! ## Quiet fragments -/

@[simp] theorem quiet_str (s : String) : Quiet scope (.str s) :=
  everywhere_of_scalar (fun _ heq => nomatch heq) (fun _ heq => nomatch heq)

@[simp] theorem quiet_bool (b : Bool) : Quiet scope (.bool b) :=
  everywhere_of_scalar (fun _ heq => nomatch heq) (fun _ heq => nomatch heq)

@[simp] theorem quiet_num (n : Json.Number) : Quiet scope (.num n) :=
  everywhere_of_scalar (fun _ heq => nomatch heq) (fun _ heq => nomatch heq)

theorem nothingToWrap_of_get?_eq_none {fields : Fields}
    (hget : Table.get? "aggregations" fields = none) : NothingToWrap scope fields := by
  intro map hmap
  rw [hget] at hmap
  cases hmap

/-- An object with a single field under another key holds no map of aggregations. -/
theorem nothingToWrap_singleton {key : String} (hkey : key ≠ "aggregations") (value : Json) :
    NothingToWrap scope [(key, value)] :=
  nothingToWrap_of_get?_eq_none (by rw [Table.get?_cons, if_neg hkey, Table.get?_nil])

/-- A key with an underscore is not the one of a map of aggregations. -/
theorem ne_aggregations_of_mem {key : String} (hkey : '_' ∈ key.toList) :
    key ≠ "aggregations" := by
  rintro rfl
  exact absurd hkey (by decide)

theorem underscore_mem_append (key : String) {suffix : String}
    (hsuffix : '_' ∈ suffix.toList) : '_' ∈ (key ++ suffix).toList := by
  rw [String.toList_append]
  exact List.mem_append_right _ hsuffix

theorem filterKey_ne (key : String) : key ++ "_filter" ≠ "aggregations" :=
  ne_aggregations_of_mem (underscore_mem_append key (by decide))

theorem quiet_termsBody (field : String) (size : Nat) : Quiet scope (termsBody field size) := by
  simp [termsBody, quiet_obj_iff, NothingToWrap, Table.get?, Json.ofNat, Json.ofInt]

theorem quiet_of_isLeaf {fragment : Json} (hleaf : IsLeaf fragment) : Quiet scope fragment := by
  cases hleaf <;>
    simp [termsFragment, termsBody, sumFragment, topFragment, histogramFragment, quiet_obj_iff,
      quiet_arr_iff, NothingToWrap, Table.get?, Json.ofNat, Json.ofInt]

theorem isNestedAt_of_isLeaf {fragment : Json} (hleaf : IsLeaf fragment) :
    isNestedAt scope fragment = false := by
  cases hleaf <;> rfl

theorem isNestedAt_terms (field : String) (size : Nat) (inner : Option Fields) :
    isNestedAt scope (termsFragment field size inner) = false := by
  cases inner <;> rfl

theorem isNestedAt_layer (children filter : Json) :
    isNestedAt scope (.obj [("aggregations", children), ("filter", filter)]) = false := rfl

theorem isNestedAt_wrapper (children : Json) (other : String) :
    isNestedAt scope (.obj [("aggregations", children), ("nested", .obj [("path", .str other)])]) =
      (other == scope) := by
  simp [isNestedAt, nestedAt, at?, get?, Table.get?, string?]

/-! ## Quiet layers -/

/-- Children of a fragment that an injection has nothing to do with: neither
the map itself nor anything in it. -/
structure ChildrenQuiet (scope : String) (children : Json) : Prop where
  quiet : Quiet scope children
  noneNested : ∀ map, children = .obj map → NoneNestedAt scope map

theorem ChildrenQuiet.nothingToWrap {children : Json} (h : ChildrenQuiet scope children)
    (rest : Fields) : NothingToWrap scope (("aggregations", children) :: rest) := by
  intro map hmap
  rw [Table.get?_cons, if_pos rfl, Option.some.injEq] at hmap
  exact h.noneNested map hmap

theorem ChildrenQuiet.layerOver {children filter : Json} (h : ChildrenQuiet scope children)
    (hfilter : Quiet scope filter) (key : String) :
    ChildrenQuiet scope (layerOver key children filter) where
  quiet := by
    refine (quiet_obj_iff scope _).mpr ⟨nothingToWrap_singleton (filterKey_ne key) _, ?_⟩
    refine List.forall_mem_singleton.mpr ((quiet_obj_iff scope _).mpr ⟨h.nothingToWrap _, ?_⟩)
    exact List.forall_mem_cons.mpr ⟨h.quiet, List.forall_mem_singleton.mpr hfilter⟩
  noneNested map hmap := by
    cases hmap
    exact List.forall_mem_singleton.mpr (isNestedAt_layer children filter)

theorem ChildrenQuiet.layersOver {children : Json} (h : ChildrenQuiet scope children)
    {filters : List Json} (hfilters : ∀ filter ∈ filters, Quiet scope filter) (key : String) :
    ChildrenQuiet scope (layersOver key children filters) := by
  induction filters generalizing children with
  | nil => exact h
  | cons filter rest ih =>
      obtain ⟨hfilter, hrest⟩ := List.forall_mem_cons.mp hfilters
      exact ih (h.layerOver hfilter key) hrest

/-- The children that a wrapper is built with. -/
theorem childrenQuiet_terms (field : String) (size : Nat) :
    ChildrenQuiet scope
      (.obj [(keyOf field ++ nestedSuffix, .obj [("terms", termsBody field size)])]) where
  quiet := by
    refine (quiet_obj_iff scope _).mpr ⟨nothingToWrap_singleton
      (ne_aggregations_of_mem (underscore_mem_append _ (by decide))) _, ?_⟩
    exact List.forall_mem_singleton.mpr (quiet_of_isLeaf (.terms field size))
  noneNested map hmap := by
    cases hmap
    exact List.forall_mem_singleton.mpr (isNestedAt_of_isLeaf (.terms field size))

/-- A wrapper with any layers is quiet: the map of aggregations that would be
changed is the one that holds the wrapper. -/
theorem quiet_layFragment_wrapped {injections : List Injection}
    (hinjections : ∀ injection ∈ injections, Quiet scope injection.filter)
    (key other field : String) (size : Nat) :
    Quiet scope (layFragment injections key (wrapped other field size)) := by
  have hfilters : ∀ filter ∈ filtersAt other injections, Quiet scope filter := by
    intro filter hfilter
    obtain ⟨injection, hmem, rfl⟩ := List.mem_map.mp hfilter
    exact hinjections injection (List.mem_filter.mp hmem).1
  have hchildren := (childrenQuiet_terms field size).layersOver hfilters key
  rw [layFragment_wrapped]
  refine (quiet_obj_iff scope _).mpr ⟨hchildren.nothingToWrap _, ?_⟩
  refine List.forall_mem_cons.mpr ⟨hchildren.quiet, List.forall_mem_singleton.mpr ?_⟩
  simp [quiet_obj_iff, NothingToWrap, Table.get?]

end TenderSearch.Tree
