import TenderSearch.Proofs.Json.WellFormed
import TenderSearch.Tree.Walk

/-!
# What a walk comes to

A walk reaches the items of arrays and those fields of objects that are not
refused. A property holds everywhere in a tree if all the objects that are
reached have it; this is decided layer by layer.
-/

namespace TenderSearch

/-- Induction over values, with hypotheses on the members of arrays and objects. -/
@[elab_as_elim]
theorem Json.memberInduction {motive : Json → Prop} (null : motive .null)
    (bool : ∀ b, motive (.bool b)) (num : ∀ n, motive (.num n)) (str : ∀ s, motive (.str s))
    (arr : ∀ items, (∀ item ∈ items, motive item) → motive (.arr items))
    (obj : ∀ fields, (∀ entry ∈ fields, motive entry.2) → motive (.obj fields))
    (tree : Json) : motive tree :=
  @Json.rec motive (fun items => ∀ item ∈ items, motive item)
    (fun fields => ∀ entry ∈ fields, motive entry.2) (fun entry => motive entry.2)
    null bool num str arr obj
    (fun _ hmem => nomatch hmem)
    (fun _ _ hitem hrest => List.forall_mem_cons.mpr ⟨hitem, hrest⟩)
    (fun _ hmem => nomatch hmem)
    (fun _ _ hentry hrest => List.forall_mem_cons.mpr ⟨hentry, hrest⟩)
    (fun _ _ hvalue => hvalue) tree

namespace Tree

open Json

/-- The values that a walk reaches from a tree. -/
inductive Reached (descends : String → Bool) : Json → Json → Prop where
  | here (tree : Json) : Reached descends tree tree
  | item {items : List Json} {item tree : Json} (hitem : item ∈ items)
      (hreached : Reached descends item tree) : Reached descends (.arr items) tree
  | field {fields : Fields} {key : String} {value tree : Json}
      (hfield : (key, value) ∈ fields) (hdescends : descends key = true)
      (hreached : Reached descends value tree) : Reached descends (.obj fields) tree

/-- All objects that a walk reaches have a property. -/
def Everywhere (descends : String → Bool) (property : Fields → Prop) (tree : Json) : Prop :=
  ∀ fields, Reached descends tree (.obj fields) → property fields

variable {descends : String → Bool} {property : Fields → Prop}

theorem Reached.wellFormed {tree inner : Json} (hreached : Reached descends tree inner)
    (hform : tree.WellFormed) : inner.WellFormed := by
  induction hreached with
  | here => exact hform
  | item hitem _ ih => exact ih ((wellFormed_arr_iff _).mp hform _ hitem)
  | field hfield _ _ ih => exact ih (((wellFormed_obj_iff _).mp hform).2 _ hfield)

theorem everywhere_arr_iff (items : List Json) :
    Everywhere descends property (.arr items) ↔
      ∀ item ∈ items, Everywhere descends property item := by
  constructor
  · intro hall item hitem fields hreached
    exact hall fields (.item hitem hreached)
  · intro hall fields hreached
    cases hreached with
    | item hitem hreached => exact hall _ hitem fields hreached

theorem everywhere_obj_iff (fields : Fields) :
    Everywhere descends property (.obj fields) ↔ property fields ∧
      ∀ entry ∈ fields, descends entry.1 = true → Everywhere descends property entry.2 := by
  constructor
  · intro hall
    refine ⟨hall fields (.here _), ?_⟩
    intro entry hentry hdescends inner hreached
    exact hall inner (.field hentry hdescends hreached)
  · rintro ⟨hroot, hentries⟩ inner hreached
    cases hreached with
    | here => exact hroot
    | field hfield hdescends hreached => exact hentries _ hfield hdescends inner hreached

/-- Nothing is reached in a value that is neither an array nor an object. -/
theorem everywhere_of_scalar {value : Json} (harr : ∀ items, value ≠ .arr items)
    (hobj : ∀ fields, value ≠ .obj fields) : Everywhere descends property value := by
  intro fields hreached
  cases hreached with
  | here => exact absurd rfl (hobj fields)
  | item => exact absurd rfl (harr _)
  | field => exact absurd rfl (hobj _)

end Tree

end TenderSearch
