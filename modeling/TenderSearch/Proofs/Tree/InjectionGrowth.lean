import TenderSearch.Proofs.Tree.Quiet

/-!
# Trees grow under injections

Every aggregation that is wrapped adds to the size of the tree. So an injection changes
a tree exactly if it counts something, whatever the filter.
-/

namespace TenderSearch.Tree

open Json

variable {scope : String} {filter : Json}

/-- Either nothing is counted and nothing changes, or the value grows and so does the
count. -/
def Grows {α : Type} [SizeOf α] (before after : α × Nat) : Prop :=
  after = before ∨ sizeOf before.1 < sizeOf after.1 ∧ before.2 < after.2

namespace Grows

variable {α : Type} [SizeOf α]

theorem trans {first second third : α × Nat} (h₁ : Grows first second)
    (h₂ : Grows second third) : Grows first third := by
  rcases h₁ with rfl | ⟨hsize, hcount⟩
  · exact h₂
  · rcases h₂ with rfl | ⟨hsize', hcount'⟩
    · exact .inr ⟨hsize, hcount⟩
    · exact .inr ⟨Nat.lt_trans hsize hsize', Nat.lt_trans hcount hcount'⟩

theorem cons {item item' : α} {rest rest' : List α} {count middle total : Nat}
    (hitem : Grows (item, count) (item', middle)) (hrest : Grows (rest, middle) (rest', total)) :
    Grows (item :: rest, count) (item' :: rest', total) := by
  rcases hitem with hsame | ⟨hsize, hcount⟩
  · obtain ⟨rfl, rfl⟩ := Prod.mk.inj hsame
    rcases hrest with hsame | ⟨hsize, hcount⟩
    · obtain ⟨rfl, rfl⟩ := Prod.mk.inj hsame
      exact .inl rfl
    · exact .inr ⟨by simpa using hsize, hcount⟩
  · have hle : sizeOf rest ≤ sizeOf rest' ∧ middle ≤ total := by
      rcases hrest with hsame | ⟨hsize, hcount⟩
      · obtain ⟨rfl, rfl⟩ := Prod.mk.inj hsame
        exact ⟨Nat.le_refl _, Nat.le_refl _⟩
      · exact ⟨Nat.le_of_lt hsize, Nat.le_of_lt hcount⟩
    simp only [Grows, List.cons.sizeOf_spec] at *
    omega

/-- A value grows with a part of it. -/
theorem within {β : Type} [SizeOf β] {before after : α} {count total : Nat}
    (hgrows : Grows (before, count) (after, total)) (whole : α → β)
    (hwhole : sizeOf before < sizeOf after → sizeOf (whole before) < sizeOf (whole after)) :
    Grows (whole before, count) (whole after, total) := by
  rcases hgrows with hsame | ⟨hsize, hcount⟩
  · obtain ⟨rfl, rfl⟩ := Prod.mk.inj hsame
    exact .inl rfl
  · exact .inr ⟨hwhole hsize, hcount⟩

theorem field {key : String} {value value' : Json} {count total : Nat}
    (hvalue : Grows (value, count) (value', total)) :
    Grows ((key, value), count) ((key, value'), total) :=
  hvalue.within (Prod.mk key) (by simp)

theorem arr {items items' : List Json} {count total : Nat}
    (hitems : Grows (items, count) (items', total)) :
    Grows (Json.arr items, count) (Json.arr items', total) :=
  hitems.within Json.arr (by simp)

theorem obj {fields fields' : Fields} {count total : Nat}
    (hfields : Grows (fields, count) (fields', total)) :
    Grows (Json.obj fields, count) (Json.obj fields', total) :=
  hfields.within Json.obj (by simp)

end Grows

theorem sizeOf_lt_insert {key : String} {value : Json} {fields : Fields}
    (hvalue : ∀ other, Table.get? key fields = some other → sizeOf other < sizeOf value) :
    sizeOf fields < sizeOf (Table.insert key value fields) := by
  induction fields with
  | nil =>
      simp only [Table.insert, List.cons.sizeOf_spec, Prod.mk.sizeOf_spec]
      omega
  | cons entry rest ih =>
      obtain ⟨k, other⟩ := entry
      unfold Table.insert
      split
      next heq =>
        have hlt := hvalue other (by rw [Table.get?_cons, if_pos heq])
        simp [heq, hlt]
      next hne =>
        split
        next =>
          rw [List.cons.sizeOf_spec (key, value), Prod.mk.sizeOf_spec]
          omega
        next =>
          have hlt := ih fun value hget => hvalue value (by rw [Table.get?_cons, if_neg hne, hget])
          simpa using hlt

theorem sizeOf_lt_modify {key : String} {value other : Json} {fields : Fields}
    (hget : Table.get? key fields = some other) (hvalue : sizeOf other < sizeOf value) :
    sizeOf fields < sizeOf (Table.modify key (fun _ => value) fields) := by
  induction fields with
  | nil => cases hget
  | cons entry rest ih =>
      obtain ⟨k, first⟩ := entry
      rw [Table.get?_cons] at hget
      rw [Table.modify]
      split at hget
      next heq =>
        cases hget
        simp [heq, hvalue]
      next hne =>
        have hlt := ih hget
        simpa [hne] using hlt

/-- The layer is larger than the children that move below it. -/
theorem sizeOf_lt_wrap (key : String) (aggregation : Fields) :
    sizeOf aggregation < sizeOf (wrap filter key aggregation) := by
  apply sizeOf_lt_insert
  intro children hget
  rw [hget]
  simp [filterLayer]
  omega

theorem grows_wrapAll (map : Fields) (count : Nat) :
    Grows (map, count) (wrapAll scope filter map count) := by
  induction map generalizing count with
  | nil => exact .inl rfl
  | cons entry rest ih =>
      obtain ⟨key, value⟩ := entry
      cases value with
      | obj aggregation =>
          rw [wrapAll]
          split
          next =>
            have hwrap : Grows (Json.obj aggregation, count)
                (Json.obj (wrap filter key aggregation), count + 1) :=
              Grows.obj (.inr ⟨sizeOf_lt_wrap key aggregation, Nat.lt_succ_self count⟩)
            exact hwrap.field.cons (ih (count + 1))
          next => exact Grows.cons (.inl rfl) (ih count)
      | _ => exact Grows.cons (.inl rfl) (ih count)

theorem grows_wrapInside (fields : Fields) (count : Nat) :
    Grows (fields, count) (wrapInside scope filter fields count) := by
  unfold wrapInside
  split
  next map hget =>
    have hmap : Grows (map, count) (wrapAll scope filter map count) := grows_wrapAll map count
    rcases hmap with hsame | ⟨hsize, hcount⟩
    · simp only [hsame, modify_eq_self hget]
      exact .inl rfl
    · refine .inr ⟨sizeOf_lt_modify hget ?_, hcount⟩
      simpa using hsize
  next => exact .inl rfl

section Steps

variable {step : Json → Nat → Option (Json × Nat)} {count : Nat}

theorem grows_walkItems {items : List Json} {result : List Json × Nat}
    (hstep : ∀ item ∈ items, ∀ count result, step item count = some result →
      Grows (item, count) result)
    (hwalk : walkItems step items count = some result) : Grows (items, count) result := by
  induction items generalizing count result with
  | nil =>
      cases hwalk
      exact .inl rfl
  | cons item rest ih =>
      obtain ⟨hitem, hrest⟩ := List.forall_mem_cons.mp hstep
      obtain ⟨walked, total⟩ := result
      obtain ⟨item', _, rest', hfirst, hlater, rfl⟩ := walkItems_cons_eq_some hwalk
      exact (hitem _ _ hfirst).cons (ih hrest hlater)

theorem grows_walkFields {fields : Fields} {result : Fields × Nat}
    (hstep : ∀ entry ∈ fields, ∀ count result, step entry.2 count = some result →
      Grows (entry.2, count) result)
    (hwalk : walkFields step (fun _ => true) fields count = some result) :
    Grows (fields, count) result := by
  induction fields generalizing count result with
  | nil =>
      cases hwalk
      exact .inl rfl
  | cons entry rest ih =>
      obtain ⟨hentry, hrest⟩ := List.forall_mem_cons.mp hstep
      obtain ⟨walked, total⟩ := result
      obtain ⟨value, _, rest', hfirst, hlater, rfl⟩ := walkFields_cons_eq_some rfl hwalk
      exact (hentry _ _ hfirst).field.cons (ih hrest hlater)

end Steps

/-- A tree grows with every aggregation that is wrapped in it. -/
theorem grows_walk {allowance : Nat} {tree : Json} {count : Nat} {result : Json × Nat}
    (hwalk : walk (injector scope filter) allowance tree count = some result) :
    Grows (tree, count) result := by
  induction allowance generalizing tree count result with
  | zero =>
      cases tree with
      | arr items => cases hwalk
      | obj fields => cases hwalk
      | _ =>
          cases hwalk
          exact .inl rfl
  | succ allowance ih =>
      obtain ⟨walked, total⟩ := result
      cases tree with
      | arr items =>
          obtain ⟨items', hitems, rfl⟩ := walk_arr_eq_some hwalk
          exact (grows_walkItems (fun _ _ _ _ hstep => ih hstep) hitems).arr
      | obj fields =>
          obtain ⟨fields', _, hfields, rfl, rfl⟩ := walk_obj_eq_some hwalk
          have hentered : Grows (fields, count) (wrapInside scope filter fields count) :=
            grows_wrapInside fields count
          exact (hentered.trans (grows_walkFields (fun _ _ _ _ hstep => ih hstep) hfields)).obj
      | _ =>
          cases hwalk
          exact .inl rfl

end TenderSearch.Tree
