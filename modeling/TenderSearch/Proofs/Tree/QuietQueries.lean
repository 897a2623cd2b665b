import TenderSearch.Clause.Fragment
import TenderSearch.Proofs.Tree.QuietFragments

/-!
# Queries that an injection leaves alone

A query may have an object under a field `aggregations`, because a document field
is called so, but nothing in such an object looks nested: where the query compares
with a value that has no field `nested` anywhere, it is quiet at every scope. The
queries on nested documents that are put around do not stand in such an object.
-/

namespace TenderSearch.Tree

open Json Fragment

variable {scope : String}

/-! ## Values without nested fields -/

/-- No object in a value has a field `nested`. -/
def WithoutNested (value : Json) : Prop :=
  Everywhere (fun _ => true) (fun fields => Table.get? "nested" fields = none) value

theorem withoutNested_arr_iff (items : List Json) :
    WithoutNested (.arr items) ↔ ∀ item ∈ items, WithoutNested item :=
  everywhere_arr_iff items

theorem withoutNested_obj_iff (fields : Fields) :
    WithoutNested (.obj fields) ↔
      Table.get? "nested" fields = none ∧ ∀ entry ∈ fields, WithoutNested entry.2 := by
  simp [WithoutNested, everywhere_obj_iff]

@[simp] theorem withoutNested_str (s : String) : WithoutNested (.str s) :=
  everywhere_of_scalar (fun _ heq => nomatch heq) (fun _ heq => nomatch heq)

@[simp] theorem withoutNested_num (n : Json.Number) : WithoutNested (.num n) :=
  everywhere_of_scalar (fun _ heq => nomatch heq) (fun _ heq => nomatch heq)

theorem isNestedAt_of_withoutNested {value : Json} (hvalue : WithoutNested value) :
    isNestedAt scope value = false := by
  cases value with
  | obj fields =>
      obtain ⟨hnone, -⟩ := (withoutNested_obj_iff fields).mp hvalue
      rw [isNestedAt, nestedAt, at?, get?, hnone]
      rfl
  | _ => rfl

/-- An object over such values has nothing to wrap, whatever its fields are called. -/
theorem nothingToWrap_of_withoutNested {fields : Fields}
    (hfields : ∀ entry ∈ fields, WithoutNested entry.2) : NothingToWrap scope fields := by
  intro map hget entry hentry
  have hmap : WithoutNested (.obj map) := hfields _ (Table.mem_of_get? hget)
  obtain ⟨-, hentries⟩ := (withoutNested_obj_iff map).mp hmap
  exact isNestedAt_of_withoutNested (hentries entry hentry)

theorem quiet_of_withoutNested {value : Json} (hvalue : WithoutNested value) :
    Quiet scope value := by
  induction value using Json.memberInduction with
  | null => exact everywhere_of_scalar (fun _ heq => nomatch heq) (fun _ heq => nomatch heq)
  | bool b => exact quiet_bool b
  | num n => exact quiet_num n
  | str s => exact quiet_str s
  | arr items ih =>
      rw [withoutNested_arr_iff] at hvalue
      rw [quiet_arr_iff]
      intro item hitem
      exact ih item hitem (hvalue item hitem)
  | obj fields ih =>
      obtain ⟨-, hentries⟩ := (withoutNested_obj_iff fields).mp hvalue
      rw [quiet_obj_iff]
      constructor
      · exact nothingToWrap_of_withoutNested hentries
      · intro entry hentry
        exact ih entry hentry (hentries entry hentry)

theorem quiet_obj_of_withoutNested {fields : Fields}
    (hfields : ∀ entry ∈ fields, WithoutNested entry.2) : Quiet scope (.obj fields) := by
  rw [quiet_obj_iff]
  constructor
  · exact nothingToWrap_of_withoutNested hfields
  · intro entry hentry
    exact quiet_of_withoutNested (hfields entry hentry)

/-! ## Quiet queries -/

theorem quiet_singleton {key : String} (hkey : key ≠ "aggregations") {value : Json}
    (hvalue : Quiet scope value) : Quiet scope (.obj [(key, value)]) := by
  rw [quiet_obj_iff]
  exact ⟨nothingToWrap_singleton hkey value, List.forall_mem_singleton.mpr hvalue⟩

/-- The field of a condition may have any name, but its kind may not be called like
a map of aggregations. -/
theorem quiet_leaf {kind : String} (hkind : kind ≠ "aggregations") (field : String)
    {body : Json} (hbody : WithoutNested body) : Quiet scope (leaf kind field body) := by
  apply quiet_singleton hkind
  apply quiet_obj_of_withoutNested
  exact List.forall_mem_singleton.mpr hbody

theorem quiet_matchAll (scope : String) : Quiet scope matchAll := by
  simp [matchAll, quiet_obj_iff, NothingToWrap, Table.get?]

theorem quiet_conjunction {parts : List Json} (hparts : ∀ part ∈ parts, Quiet scope part) :
    Quiet scope (conjunction parts) := by
  apply quiet_singleton (by decide)
  apply quiet_singleton (by decide)
  exact (quiet_arr_iff scope parts).mpr hparts

theorem quiet_disjunction {parts : List Json} (hparts : ∀ part ∈ parts, Quiet scope part) :
    Quiet scope (disjunction parts) := by
  apply quiet_singleton (by decide)
  exact (quiet_arr_iff scope parts).mpr hparts

theorem quiet_nested (path : String) {query : Json} (hquery : Quiet scope query) :
    Quiet scope (nested path query) := by
  apply quiet_singleton (by decide)
  rw [quiet_obj_iff]
  refine ⟨nothingToWrap_of_get?_eq_none rfl, ?_⟩
  exact List.forall_mem_cons.mpr ⟨quiet_str path, List.forall_mem_singleton.mpr hquery⟩

theorem quiet_filtered {query filter : Json} (hquery : Quiet scope query)
    (hfilter : Quiet scope filter) : Quiet scope (filtered query filter) := by
  apply quiet_singleton (by decide)
  rw [quiet_obj_iff]
  refine ⟨nothingToWrap_of_get?_eq_none rfl, ?_⟩
  exact List.forall_mem_cons.mpr ⟨hfilter, List.forall_mem_singleton.mpr hquery⟩

end TenderSearch.Tree
