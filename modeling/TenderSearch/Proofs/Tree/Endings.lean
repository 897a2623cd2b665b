import TenderSearch.Proofs.Tree.WalkSteps

/-!
# Walks that end and walks that do not

A walk ends if the walks through everything that it enters end. It never ends,
whatever its allowance, if it always enters something that it does not come to
the end of.
-/

namespace TenderSearch.Tree

open Json

variable {σ : Type}

/-- The walk of a tree ends with an allowance, whatever state it starts in. -/
def EndsWithin (visitor : Visitor σ) (allowance : Nat) (tree : Json) : Prop :=
  ∀ s, ∃ result, walk visitor allowance tree s = some result

/-- No allowance is enough for the walk of a tree. -/
def NeverEnds (visitor : Visitor σ) (tree : Json) : Prop :=
  ∀ allowance s, walk visitor allowance tree s = none

section Steps

variable {step : Json → σ → Option (Json × σ)} {descends : String → Bool}

theorem exists_walkItems {items : List Json}
    (hstep : ∀ item ∈ items, ∀ s, ∃ result, step item s = some result) (s : σ) :
    ∃ result, walkItems step items s = some result := by
  induction items generalizing s with
  | nil => exact ⟨_, rfl⟩
  | cons item rest ih =>
      obtain ⟨hitem, hrest⟩ := List.forall_mem_cons.mp hstep
      obtain ⟨⟨item', s₁⟩, hitem⟩ := hitem s
      obtain ⟨⟨rest', s₂⟩, hrest⟩ := ih hrest s₁
      exact ⟨(item' :: rest', s₂), by simp [walkItems, hitem, hrest]⟩

theorem exists_walkFields {fields : Fields}
    (hstep : ∀ entry ∈ fields, ∀ s, ∃ result, step entry.2 s = some result) (s : σ) :
    ∃ result, walkFields step descends fields s = some result := by
  induction fields generalizing s with
  | nil => exact ⟨_, rfl⟩
  | cons entry rest ih =>
      obtain ⟨key, value⟩ := entry
      obtain ⟨hentry, hrest⟩ := List.forall_mem_cons.mp hstep
      cases hdescends : descends key with
      | false =>
          obtain ⟨⟨rest', s₁⟩, hrest⟩ := ih hrest s
          exact ⟨((key, value) :: rest', s₁), by simp [walkFields, hdescends, hrest]⟩
      | true =>
          obtain ⟨⟨value', s₁⟩, hvalue⟩ := hentry s
          obtain ⟨⟨rest', s₂⟩, hrest⟩ := ih hrest s₁
          exact ⟨((key, value') :: rest', s₂), by simp [walkFields, hdescends, hvalue, hrest]⟩

/-- Stepping through items does not get past one without an end. -/
theorem walkItems_eq_none {items : List Json} {item : Json} (hitem : item ∈ items)
    (hstep : ∀ s, step item s = none) (s : σ) : walkItems step items s = none := by
  induction items generalizing s with
  | nil => exact nomatch hitem
  | cons first rest ih =>
      rcases List.mem_cons.mp hitem with rfl | hrest
      · simp [walkItems, hstep]
      · cases hfirst : step first s with
        | none => simp [walkItems, hfirst]
        | some result => simp [walkItems, hfirst, ih hrest]

theorem walkFields_eq_none {fields : Fields} {entry : String × Json} (hentry : entry ∈ fields)
    (hdescends : descends entry.1 = true) (hstep : ∀ s, step entry.2 s = none) (s : σ) :
    walkFields step descends fields s = none := by
  induction fields generalizing s with
  | nil => exact nomatch hentry
  | cons first rest ih =>
      obtain ⟨key, value⟩ := first
      rcases List.mem_cons.mp hentry with rfl | hrest
      · simp only at hdescends hstep
        simp [walkFields, hdescends, hstep]
      · cases hkey : descends key with
        | false => simp [walkFields, hkey, ih hrest]
        | true =>
            cases hfirst : step value s with
            | none => simp [walkFields, hkey, hfirst]
            | some result => simp [walkFields, hkey, hfirst, ih hrest]

end Steps

variable {visitor : Visitor σ} {allowance : Nat}

theorem endsWithin_of_scalar {value : Json} (harr : ∀ items, value ≠ .arr items)
    (hobj : ∀ fields, value ≠ .obj fields) : EndsWithin visitor allowance value := by
  intro s
  cases value with
  | arr items => exact absurd rfl (harr items)
  | obj fields => exact absurd rfl (hobj fields)
  | _ => cases allowance <;> exact ⟨_, rfl⟩

theorem endsWithin_arr {items : List Json}
    (hitems : ∀ item ∈ items, EndsWithin visitor allowance item) :
    EndsWithin visitor (allowance + 1) (.arr items) := by
  intro s
  obtain ⟨⟨walked, s₁⟩, hwalk⟩ := exists_walkItems hitems s
  exact ⟨_, walk_arr_of_walkItems hwalk⟩

/-- The walk of an object ends if the walks of the fields end that it has once it
is entered. -/
theorem endsWithin_obj {fields : Fields}
    (hfields : ∀ s, ∀ entry ∈ (visitor.enter fields s).1, EndsWithin visitor allowance entry.2) :
    EndsWithin visitor (allowance + 1) (.obj fields) := by
  intro s
  obtain ⟨⟨walked, s₁⟩, hwalk⟩ := exists_walkFields (hfields s) (visitor.enter fields s).2
  exact ⟨_, walk_obj_of_walkFields rfl hwalk⟩

/-- A walk never ends from a tree with a property that is handed on, from every
array to an item and from every object to a field of it once it is entered. -/
theorem neverEnds_of_handedOn (property : Json → Prop)
    (hscalar : ∀ tree, property tree →
      (∃ items, tree = .arr items) ∨ ∃ fields, tree = .obj fields)
    (harr : ∀ items, property (.arr items) → ∃ item ∈ items, property item)
    (hobj : ∀ fields s, property (.obj fields) →
      ∃ entry ∈ (visitor.enter fields s).1, visitor.descends entry.1 = true ∧ property entry.2)
    {tree : Json} (htree : property tree) : NeverEnds visitor tree := by
  intro allowance
  -- every level of the walk takes a unit of the allowance, and there is a next level
  induction allowance generalizing tree with
  | zero =>
      intro s
      rcases hscalar tree htree with ⟨items, rfl⟩ | ⟨fields, rfl⟩ <;> rfl
  | succ allowance ih =>
      intro s
      rcases hscalar tree htree with ⟨items, rfl⟩ | ⟨fields, rfl⟩
      · obtain ⟨item, hitem, hproperty⟩ := harr items htree
        simp [walk, walkItems_eq_none hitem (ih hproperty)]
      · obtain ⟨entry, hentry, hdescends, hproperty⟩ := hobj fields s htree
        simp [walk, walkFields_eq_none hentry hdescends (ih hproperty)]

end TenderSearch.Tree
