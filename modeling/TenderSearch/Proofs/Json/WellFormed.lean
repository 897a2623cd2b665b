import TenderSearch.Json.Basic

/-!
# Well-formed values

A value is well-formed if its members are and, in an object, the keys ascend.
-/

namespace TenderSearch.Json

theorem wellFormedItems_iff (items : List Json) :
    WellFormedItems items ↔ ∀ item ∈ items, item.WellFormed := by
  induction items with
  | nil => simp [WellFormedItems]
  | cons item rest ih => rw [WellFormedItems, ih, List.forall_mem_cons]

theorem wellFormedFields_iff (fields : Fields) :
    WellFormedFields fields ↔ ∀ entry ∈ fields, entry.2.WellFormed := by
  induction fields with
  | nil => simp [WellFormedFields]
  | cons entry rest ih => rw [WellFormedFields, ih, List.forall_mem_cons]

theorem wellFormed_arr_iff (items : List Json) :
    (Json.arr items).WellFormed ↔ ∀ item ∈ items, item.WellFormed := by
  rw [WellFormed, wellFormedItems_iff]

theorem wellFormed_obj_iff (fields : Fields) :
    (Json.obj fields).WellFormed ↔
      Table.Ascending fields ∧ ∀ entry ∈ fields, entry.2.WellFormed := by
  rw [WellFormed, wellFormedFields_iff]

theorem wellFormed_of_get? {fields : Fields} (hfields : (Json.obj fields).WellFormed)
    {key : String} {value : Json} (hget : Table.get? key fields = some value) :
    value.WellFormed :=
  ((wellFormed_obj_iff fields).mp hfields).2 _ (Table.mem_of_get? hget)

theorem WellFormed.of_get? {key : String} {value member : Json}
    (hvalue : value.WellFormed) (hget : value.get? key = some member) : member.WellFormed := by
  cases value with
  | obj fields => exact wellFormed_of_get? hvalue hget
  | _ => cases hget

theorem WellFormed.of_at? {path : List String} {value member : Json}
    (hvalue : value.WellFormed) (hat : value.at? path = some member) : member.WellFormed := by
  induction path generalizing value with
  | nil =>
      obtain rfl : value = member := Option.some.inj hat
      exact hvalue
  | cons key rest ih =>
      obtain ⟨next, hnext, hat⟩ := Option.bind_eq_some_iff.mp hat
      exact ih (hvalue.of_get? hnext) hat

end TenderSearch.Json
