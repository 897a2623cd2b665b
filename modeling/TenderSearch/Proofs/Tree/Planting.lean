import Mathlib.Data.List.Sort
import TenderSearch.Proofs.Tree.Turns

/-!
# Planting an entry

An entry is planted into the first object of a tree, the one at which a walk takes its
first turn. There are only arrays above that object, so no refused field leads to it.
Planting keeps its path and puts into it what the planted value holds.
-/

namespace TenderSearch.Tree

open Json

variable {refused : List String}

/-! ## The first object -/

mutual

/-- The path of the first object, which has only arrays above it. -/
def firstObject? : Json → Option (List PathStep)
  | .null => none
  | .bool _ => none
  | .num _ => none
  | .str _ => none
  | .arr items => firstInItems? 0 items
  | .obj _ => some []

def firstInItems? (index : Nat) : List Json → Option (List PathStep)
  | [] => none
  | item :: rest =>
      ((firstObject? item).map (.item index :: ·)).or (firstInItems? (index + 1) rest)

end

/-- Puts an entry into the object at the end of a path. -/
def plantAt (key : String) (value : Json) : List PathStep → Json → Json
  | [], .obj fields => .obj (Table.insert key value fields)
  | .item index :: rest, .arr items => .arr (items.modify index (plantAt key value rest))
  | .key name :: rest, .obj fields => .obj (Table.modify name (plantAt key value rest) fields)
  | _, tree => tree

/-- A tree with the planted entry in its first object. -/
def planted (plant : Option (String × Json)) (tree : Json) : Json :=
  match plant, firstObject? tree with
  | some (key, value), some first => plantAt key value first tree
  | _, _ => tree

theorem firstObject?_arr (refused : List String) (items : List Json) :
    firstObject? (.arr items) = (branches refused (.arr items)).findSome? fun branch =>
      (firstObject? branch.2).map (branch.1 :: ·) := by
  have hitems : ∀ index, firstInItems? index items =
      (items.mapIdx fun place item => (PathStep.item (index + place), item)).findSome?
        fun branch => (firstObject? branch.2).map (branch.1 :: ·) := by
    induction items with
    | nil => intro index; rfl
    | cons item rest ih =>
        intro index
        rw [firstInItems?, ih, List.mapIdx_cons, List.findSome?_cons]
        cases firstObject? item <;> simp [Nat.add_assoc, Nat.add_comm 1]
  rw [firstObject?, hitems]
  simp only [Nat.zero_add, branches]

theorem firstInItems?_eq_some_iff {index : Nat} {items : List Json} {first : List PathStep} :
    firstInItems? index items = some first ↔ ∃ before item after rest,
      items = before ++ item :: after ∧ (∀ other ∈ before, firstObject? other = none) ∧
        firstObject? item = some rest ∧ first = .item (index + before.length) :: rest := by
  induction items generalizing index with
  | nil => simp [firstInItems?]
  | cons item rest ih =>
      rw [firstInItems?]
      constructor
      · intro hfirst
        cases hitem : firstObject? item with
        | some path =>
            rw [hitem] at hfirst
            obtain rfl : .item index :: path = first := Option.some.inj hfirst
            exact ⟨[], item, rest, path, rfl, by simp, hitem, rfl⟩
        | none =>
            rw [hitem] at hfirst
            obtain ⟨before, found, after, path, rfl, hbefore, hfound, rfl⟩ := ih.mp hfirst
            refine ⟨item :: before, found, after, path, rfl,
              List.forall_mem_cons.mpr ⟨hitem, hbefore⟩, hfound, ?_⟩
            rw [List.length_cons, Nat.add_assoc, Nat.add_comm 1]
      · rintro ⟨before, found, after, path, hsplit, hbefore, hfound, rfl⟩
        cases before with
        | nil =>
            obtain ⟨rfl, -⟩ := List.cons.inj hsplit
            rw [hfound]
            rfl
        | cons other before =>
            obtain ⟨rfl, rfl⟩ := List.cons.inj hsplit
            obtain ⟨hnone, hbefore⟩ := List.forall_mem_cons.mp hbefore
            rw [hnone]
            refine ih.mpr ⟨before, found, after, path, rfl, hbefore, hfound, ?_⟩
            rw [List.length_cons, Nat.add_assoc, Nat.add_comm 1]

theorem firstObject?_arr_eq_some_iff {items : List Json} {first : List PathStep} :
    firstObject? (.arr items) = some first ↔ ∃ before item after rest,
      items = before ++ item :: after ∧ (∀ other ∈ before, firstObject? other = none) ∧
        firstObject? item = some rest ∧ first = .item before.length :: rest := by
  rw [firstObject?, firstInItems?_eq_some_iff]
  simp only [Nat.zero_add]

theorem firstObject?_arr_eq_none {items : List Json}
    (hnone : firstObject? (.arr items) = none) : ∀ item ∈ items, firstObject? item = none := by
  rw [firstObject?_arr [], List.findSome?_eq_none_iff] at hnone
  intro item hitem
  obtain ⟨index, hindex, rfl⟩ := List.mem_iff_getElem.mp hitem
  have hbranch := hnone (.item index, items[index]) (List.mem_mapIdx.mpr ⟨index, hindex, rfl⟩)
  exact Option.map_eq_none_iff.mp hbranch

/-- The first turn is taken at the first object. -/
theorem head?_turns (refused : List String) (tree : Json) :
    (turns refused tree).head? = (firstObject? tree).map Turn.enter := by
  induction tree using Json.memberInduction with
  | arr items ih =>
      rw [turns_arr, List.head?_flatMap, firstObject?_arr refused,
        List.map_findSome?, ← List.head?_filterMap, ← List.head?_filterMap]
      congr 1
      apply List.filterMap_congr
      intro branch hbranch
      obtain ⟨index, hindex, rfl⟩ := List.mem_mapIdx.mp hbranch
      rw [turnsBehind, List.head?_map, ih _ (List.getElem_mem hindex)]
      simp [Function.comp_def, Turn.under]
  | obj fields => rw [turns_obj]; rfl
  | _ => rfl

theorem turns_eq_nil {tree : Json} (hnone : firstObject? tree = none) :
    turns refused tree = [] := by
  rw [← List.head?_eq_none_iff, head?_turns, hnone]
  rfl

/-! ## The planted tree -/

theorem wellFormed_of_member? {step : PathStep} {value member : Json} (hvalue : value.WellFormed)
    (hmember : member? step value = some member) : member.WellFormed := by
  cases step with
  | key name => exact hvalue.of_get? hmember
  | item index =>
      cases value with
      | arr items =>
          exact (wellFormed_arr_iff items).mp hvalue _ (List.mem_of_getElem? hmember)
      | _ => cases hmember

theorem wellFormed_of_objectAt? {path : List PathStep} {tree : Json} (htree : tree.WellFormed)
    {fields : Fields} (hobject : objectAt? refused path tree = some fields) :
    (Json.obj fields).WellFormed := by
  induction path generalizing tree with
  | nil =>
      cases tree with
      | obj inner =>
          obtain rfl : inner = fields := Option.some.inj hobject
          exact htree
      | _ => cases hobject
  | cons step rest ih =>
      rw [objectAt?] at hobject
      split at hobject
      next => cases hobject
      next =>
        obtain ⟨member, hmember, hobject⟩ := Option.bind_eq_some_iff.mp hobject
        exact ih (wellFormed_of_member? htree hmember) hobject

theorem objectAt?_cons {step : PathStep} {tree member : Json}
    (hrefused : step.isRefused refused = false) (hmember : member? step tree = some member)
    (rest : List PathStep) :
    objectAt? refused (step :: rest) tree = objectAt? refused rest member := by
  rw [objectAt?, hrefused, hmember]
  rfl

theorem exists_object_of_firstObject? (refused : List String) {tree : Json}
    (htree : tree.WellFormed) {first : List PathStep} (hfirst : firstObject? tree = some first) :
    ∃ fields, objectAt? refused first tree = some fields := by
  have hhead := head?_turns refused tree
  rw [hfirst] at hhead
  exact Option.isSome_iff_exists.mp ((mem_turns htree _).mp (List.mem_of_head? hhead))

section Planted

variable {key : String} {value : Json}

theorem plantAt_item (before after : List Json) (item : Json) (rest : List PathStep) :
    plantAt key value (.item before.length :: rest) (.arr (before ++ item :: after)) =
      .arr (before ++ plantAt key value rest item :: after) := by
  rw [plantAt, List.modify_eq_take_cons_drop (by simp)]
  simp

theorem firstObject?_plantAt {tree : Json} {first : List PathStep}
    (hfirst : firstObject? tree = some first) :
    firstObject? (plantAt key value first tree) = some first := by
  induction tree using Json.memberInduction generalizing first with
  | arr items ih =>
      obtain ⟨before, item, after, rest, rfl, hbefore, hitem, rfl⟩ :=
        firstObject?_arr_eq_some_iff.mp hfirst
      rw [plantAt_item]
      exact firstObject?_arr_eq_some_iff.mpr
        ⟨before, _, after, rest, rfl, hbefore, ih item (by simp) hitem, rfl⟩
  | obj fields =>
      obtain rfl : [] = first := Option.some.inj hfirst
      rfl
  | _ => cases hfirst

theorem wellFormed_plantAt (key : String) (hvalue : value.WellFormed) {tree : Json}
    (htree : tree.WellFormed) (path : List PathStep) :
    (plantAt key value path tree).WellFormed := by
  induction path generalizing tree with
  | nil =>
      cases tree with
      | obj fields =>
          obtain ⟨hascending, hvalues⟩ := (wellFormed_obj_iff fields).mp htree
          apply (wellFormed_obj_iff _).mpr
          refine ⟨hascending.insert key value, ?_⟩
          intro entry hentry
          rcases Table.eq_or_mem_of_mem_insert hentry with rfl | hmem
          · exact hvalue
          · exact hvalues entry hmem
      | _ => exact htree
  | cons step rest ih =>
      cases tree with
      | arr items =>
          cases step with
          | key name => exact htree
          | item index =>
              have hitems := (wellFormed_arr_iff items).mp htree
              apply (wellFormed_arr_iff _).mpr
              intro item hitem
              obtain ⟨place, hplace, rfl⟩ := List.mem_iff_getElem.mp hitem
              rw [List.getElem_modify]
              split
              next => exact ih (hitems _ (List.getElem_mem _))
              next => exact hitems _ (List.getElem_mem _)
      | obj fields =>
          cases step with
          | item index => exact htree
          | key name =>
              obtain ⟨hascending, hvalues⟩ := (wellFormed_obj_iff fields).mp htree
              apply (wellFormed_obj_iff _).mpr
              refine ⟨hascending.modify name _, ?_⟩
              intro entry hentry
              rcases Table.mem_or_eq_of_mem_modify hentry with hmem | ⟨old, hmem, rfl⟩
              · exact hvalues entry hmem
              · exact ih (hvalues _ hmem)
      | _ => cases step <;> exact htree

theorem member?_plantAt (step : PathStep) (rest : List PathStep) (tree : Json) :
    member? step (plantAt key value (step :: rest) tree) =
      (member? step tree).map (plantAt key value rest) := by
  cases tree with
  | arr items => cases step <;> simp [plantAt, member?, get?, list?]
  | obj fields => cases step <;> simp [plantAt, member?, get?, list?]
  | _ => cases step <;> rfl

/-- Planting changes the object at the path and leads to it by the same path. -/
theorem objectAt?_plantAt (key : String) (value : Json) {first : List PathStep} {tree : Json}
    {fields : Fields} (hobject : objectAt? refused first tree = some fields)
    (rest : List PathStep) :
    objectAt? refused (first ++ rest) (plantAt key value first tree) =
      objectAt? refused rest (.obj (Table.insert key value fields)) := by
  induction first generalizing tree with
  | nil =>
      cases tree with
      | obj inner =>
          obtain rfl : inner = fields := Option.some.inj hobject
          rfl
      | _ => cases hobject
  | cons step first ih =>
      rw [objectAt?] at hobject
      split at hobject
      next => cases hobject
      next hrefused =>
        obtain ⟨member, hmember, hobject⟩ := Option.bind_eq_some_iff.mp hobject
        rw [List.cons_append, objectAt?, if_neg hrefused, member?_plantAt, hmember]
        exact ih hobject

end Planted

theorem planted_some {key : String} {value tree : Json} {first : List PathStep}
    (hfirst : firstObject? tree = some first) :
    planted (some (key, value)) tree = plantAt key value first tree := by
  simp only [planted, hfirst]

theorem wellFormed_planted {plant : Option (String × Json)} {tree : Json}
    (htree : tree.WellFormed)
    (hplant : ∀ key value, plant = some (key, value) → value.WellFormed) :
    (planted plant tree).WellFormed := by
  unfold planted
  split
  next => exact wellFormed_plantAt _ (hplant _ _ rfl) htree _
  next => exact htree

/-- Inside the planted value the objects are those of the value, unless its key is refused. -/
theorem objectAt?_planted {key : String} {value tree : Json} (htree : tree.WellFormed)
    {first : List PathStep} (hfirst : firstObject? tree = some first) (rest : List PathStep) :
    objectAt? refused (first ++ .key key :: rest) (planted (some (key, value)) tree) =
      if refused.contains key then none else objectAt? refused rest value := by
  obtain ⟨fields, hobject⟩ := exists_object_of_firstObject? refused htree hfirst
  rw [planted_some hfirst, objectAt?_plantAt key value hobject, objectAt?, member?, get?,
    Table.get?_insert_self]
  rfl

/-- The keys of an object that an entry is put into. -/
def withKey (key : String) (keys : List String) : List String :=
  if key ∈ keys then keys else keys.orderedInsert (· < ·) key

theorem map_fst_insert (key : String) (value : Json) {fields : Fields}
    (hfields : Table.Ascending fields) :
    (Table.insert key value fields).map Prod.fst = withKey key (fields.map Prod.fst) := by
  induction fields with
  | nil => rfl
  | cons entry rest ih =>
      obtain ⟨k, v⟩ := entry
      obtain ⟨hfirst, hrest⟩ := Table.ascending_cons_iff.mp hfields
      unfold Table.insert
      by_cases heq : k = key
      · simp [withKey, heq]
      · rw [if_neg heq]
        by_cases hlt : key < k
        · -- the key is smaller than all others
          have hnone : key ∉ ((k, v) :: rest).map Prod.fst := by
            intro hmem
            obtain ⟨other, hother, rfl⟩ := List.mem_map.mp hmem
            rcases List.mem_cons.mp hother with rfl | hlater
            · exact heq rfl
            · exact Std.lt_irrefl (Std.lt_trans hlt (hfirst other hlater))
          rw [if_pos hlt, withKey, if_neg hnone, List.map_cons, List.map_cons,
            List.orderedInsert_cons, if_pos hlt]
        · rw [if_neg hlt, List.map_cons, ih hrest, withKey, withKey]
          simp only [List.map_cons, List.mem_cons, Ne.symm heq, false_or,
            List.orderedInsert_cons, hlt, if_false]
          split <;> rfl

end TenderSearch.Tree
