import Mathlib.Algebra.GroupWithZero.Nat
import TenderSearch.Tree.Walk

/-!
# Steps of a walk

An allowance that is enough for the depth of a tree is enough for the depth of
every member. If it is known what every single step does, so is what stepping
through the items of an array or the fields of an object does.
-/

namespace TenderSearch

namespace Json

theorem depth_le_depthItems {item : Json} {items : List Json} (hitem : item ∈ items) :
    item.depth ≤ depthItems items := by
  induction items with
  | nil => exact nomatch hitem
  | cons first rest ih =>
      rw [depthItems]
      rcases List.mem_cons.mp hitem with rfl | hrest
      · exact Nat.le_max_left _ _
      · exact Nat.le_trans (ih hrest) (Nat.le_max_right _ _)

theorem depth_le_depthFields {entry : String × Json} {fields : Fields} (hentry : entry ∈ fields) :
    entry.2.depth ≤ depthFields fields := by
  induction fields with
  | nil => exact nomatch hentry
  | cons first rest ih =>
      rw [depthFields]
      rcases List.mem_cons.mp hentry with rfl | hrest
      · exact Nat.le_max_left _ _
      · exact Nat.le_trans (ih hrest) (Nat.le_max_right _ _)

end Json

namespace Tree

open Json

variable {σ : Type}

/-- Steps that leave the state alone change the items one by one. -/
theorem walkItems_eq_map {step : Json → σ → Option (Json × σ)} {result : Json → Json}
    {items : List Json} {s : σ} (hstep : ∀ item ∈ items, step item s = some (result item, s)) :
    walkItems step items s = some (items.map result, s) := by
  induction items with
  | nil => rfl
  | cons item rest ih =>
      obtain ⟨hitem, hrest⟩ := List.forall_mem_cons.mp hstep
      simp [walkItems, hitem, ih hrest]

/-- Steps that leave the state alone change the values of the fields that are not
refused one by one. -/
theorem walkFields_eq_map {step : Json → σ → Option (Json × σ)} {descends : String → Bool}
    {result : Json → Json} {fields : Fields} {s : σ}
    (hstep : ∀ entry ∈ fields, step entry.2 s = some (result entry.2, s)) :
    walkFields step descends fields s =
      some (fields.map fun entry =>
        (entry.1, if descends entry.1 then result entry.2 else entry.2), s) := by
  induction fields with
  | nil => rfl
  | cons entry rest ih =>
      obtain ⟨hentry, hrest⟩ := List.forall_mem_cons.mp hstep
      cases hdescends : descends entry.1 <;> simp [walkFields, hentry, ih hrest, hdescends]

theorem walkItems_eq_self {step : Json → σ → Option (Json × σ)} {items : List Json} {s : σ}
    (hstep : ∀ item ∈ items, step item s = some (item, s)) :
    walkItems step items s = some (items, s) := by
  rw [walkItems_eq_map hstep, List.map_id']

theorem walkFields_eq_self {step : Json → σ → Option (Json × σ)} {descends : String → Bool}
    {fields : Fields} {s : σ} (hstep : ∀ entry ∈ fields, step entry.2 s = some (entry.2, s)) :
    walkFields step descends fields s = some (fields, s) := by
  have hwalk : walkFields step descends fields s =
      some (fields.map fun entry =>
        (entry.1, if descends entry.1 then id entry.2 else entry.2), s) :=
    walkFields_eq_map hstep
  simpa using hwalk

/-- Steps through all fields that count something add up their counts. The values
that are walked and the values that come out are both given entry by entry. -/
theorem walkFields_counting {step : Json → Nat → Option (Json × Nat)}
    {value result : String × Json → Json} {weight : String × Json → Nat} {fields : Fields}
    (hstep : ∀ entry ∈ fields, ∀ count,
      step (value entry) count = some (result entry, count + weight entry)) (count : Nat) :
    walkFields step (fun _ => true) (fields.map fun entry => (entry.1, value entry)) count =
      some (fields.map fun entry => (entry.1, result entry),
        count + (fields.map weight).sum) := by
  induction fields generalizing count with
  | nil => rfl
  | cons entry rest ih =>
      obtain ⟨hentry, hrest⟩ := List.forall_mem_cons.mp hstep
      simp [walkFields, hentry, ih hrest, Nat.add_assoc]

variable {visitor : Visitor σ} {allowance : Nat} {s s₁ s₂ : σ}

/-- Walking an array takes one unit of the allowance. -/
theorem walk_arr_of_walkItems {items walked : List Json}
    (hwalk : walkItems (walk visitor allowance) items s = some (walked, s₁)) :
    walk visitor (allowance + 1) (.arr items) s = some (.arr walked, s₁) := by
  rw [walk, hwalk]
  rfl

/-- Entering an object, walking its fields and leaving it take one unit of the
allowance. -/
theorem walk_obj_of_walkFields {fields entered walked : Fields}
    (henter : visitor.enter fields s = (entered, s₁))
    (hwalk : walkFields (walk visitor allowance) visitor.descends entered s₁ =
      some (walked, s₂)) :
    walk visitor (allowance + 1) (.obj fields) s =
      some (.obj (visitor.leave walked s₂).1, (visitor.leave walked s₂).2) := by
  rw [walk, henter]
  simp only [hwalk]
  rfl

/-! ## Walks that have ended -/

section Steps

variable {step : Json → σ → Option (Json × σ)} {descends : String → Bool}

theorem walkItems_cons_eq_some {item : Json} {rest walked : List Json}
    (hwalk : walkItems step (item :: rest) s = some (walked, s₂)) :
    ∃ item' s₁ rest', step item s = some (item', s₁) ∧
      walkItems step rest s₁ = some (rest', s₂) ∧ walked = item' :: rest' := by
  simp only [walkItems, Option.bind_eq_bind, Option.bind_eq_some_iff, Option.pure_def,
    Option.some.injEq, Prod.mk.injEq] at hwalk
  obtain ⟨⟨item', s₁⟩, hitem, ⟨rest', _⟩, hrest, rfl, rfl⟩ := hwalk
  exact ⟨item', s₁, rest', hitem, hrest, rfl⟩

/-- Stepping through two lists one after the other. -/
theorem walkItems_append {items others walked finished : List Json}
    (hitems : walkItems step items s = some (walked, s₁))
    (hothers : walkItems step others s₁ = some (finished, s₂)) :
    walkItems step (items ++ others) s = some (walked ++ finished, s₂) := by
  induction items generalizing s walked with
  | nil =>
      obtain ⟨rfl, rfl⟩ := Prod.mk.inj (Option.some.inj hitems)
      exact hothers
  | cons item rest ih =>
      obtain ⟨item', s', rest', hitem, hrest, rfl⟩ := walkItems_cons_eq_some hitems
      simp [walkItems, hitem, ih hrest]

theorem walkFields_cons_eq_some {key : String} {value : Json} {rest walked : Fields}
    (hdescends : descends key = true)
    (hwalk : walkFields step descends ((key, value) :: rest) s = some (walked, s₂)) :
    ∃ value' s₁ rest', step value s = some (value', s₁) ∧
      walkFields step descends rest s₁ = some (rest', s₂) ∧ walked = (key, value') :: rest' := by
  simp only [walkFields, hdescends, if_true, Option.bind_eq_bind, Option.bind_eq_some_iff,
    Option.pure_def, Option.some.injEq, Prod.mk.injEq] at hwalk
  obtain ⟨⟨value', s₁⟩, hvalue, ⟨rest', _⟩, hrest, rfl, rfl⟩ := hwalk
  exact ⟨value', s₁, rest', hvalue, hrest, rfl⟩

end Steps

theorem walk_arr_eq_some {items : List Json} {walked : Json}
    (hwalk : walk visitor (allowance + 1) (.arr items) s = some (walked, s₁)) :
    ∃ items', walkItems (walk visitor allowance) items s = some (items', s₁) ∧
      walked = .arr items' := by
  simp only [walk, Option.bind_eq_bind, Option.bind_eq_some_iff, Option.pure_def,
    Option.some.injEq, Prod.mk.injEq] at hwalk
  obtain ⟨⟨items', _⟩, hitems, rfl, rfl⟩ := hwalk
  exact ⟨items', hitems, rfl⟩

theorem walk_obj_eq_some {fields : Fields} {walked : Json}
    (hwalk : walk visitor (allowance + 1) (.obj fields) s = some (walked, s₂)) :
    ∃ fields' s₁, walkFields (walk visitor allowance) visitor.descends
        (visitor.enter fields s).1 (visitor.enter fields s).2 = some (fields', s₁) ∧
      walked = .obj (visitor.leave fields' s₁).1 ∧ s₂ = (visitor.leave fields' s₁).2 := by
  simp only [walk, Option.bind_eq_bind, Option.bind_eq_some_iff, Option.pure_def,
    Option.some.injEq, Prod.mk.injEq] at hwalk
  obtain ⟨⟨fields', s₁⟩, hfields, rfl, rfl⟩ := hwalk
  exact ⟨fields', s₁, hfields, rfl, rfl⟩

end Tree

end TenderSearch
