import TenderSearch.Proofs.Tree.Reach
import TenderSearch.Proofs.Tree.WalkSteps
import TenderSearch.Tree.Injection

/-!
# Trees that an injection leaves alone

An injection only changes maps of aggregations with an entry nested at its
scope. Where a tree holds no such map the walk comes to its end, changes
nothing and counts nothing.
-/

namespace TenderSearch.Tree

open Json

variable (scope : String) (filter : Json)

def isNestedAt : Json → Bool
  | .obj aggregation => nestedAt scope aggregation
  | _ => false

/-- An aggregation with a filter layer below it if it is nested at the scope. -/
def wrapValue (key : String) : Json → Json
  | .obj aggregation =>
      if nestedAt scope aggregation then .obj (wrap filter key aggregation) else .obj aggregation
  | value => value

theorem wrapValue_of_not_nested {value : Json} (hvalue : isNestedAt scope value = false)
    (key : String) : wrapValue scope filter key value = value := by
  cases value with
  | obj aggregation =>
      rw [isNestedAt] at hvalue
      simp [wrapValue, hvalue]
  | _ => rfl

/-- Wrapping in a map is wrapping its values one by one. -/
theorem wrapAll_eq (map : Fields) (count : Nat) :
    wrapAll scope filter map count =
      (map.map fun entry => (entry.1, wrapValue scope filter entry.1 entry.2),
        count + map.countP fun entry => isNestedAt scope entry.2) := by
  induction map generalizing count with
  | nil => rfl
  | cons entry rest ih =>
      obtain ⟨key, value⟩ := entry
      cases value with
      | obj aggregation =>
          cases hnested : nestedAt scope aggregation <;>
            simp [wrapAll, ih, wrapValue, isNestedAt, hnested, Nat.add_assoc, Nat.add_comm 1]
      | _ => simp [wrapAll, ih, wrapValue, isNestedAt]

def NoneNestedAt (map : Fields) : Prop :=
  ∀ entry ∈ map, isNestedAt scope entry.2 = false

/-- An object does not hold a map of aggregations with an entry nested at the
scope. -/
def NothingToWrap (fields : Fields) : Prop :=
  ∀ map, Table.get? "aggregations" fields = some (.obj map) → NoneNestedAt scope map

/-- No object in a tree holds a map of aggregations with an entry nested at the
scope. -/
def Quiet (tree : Json) : Prop :=
  Everywhere (fun _ => true) (NothingToWrap scope) tree

theorem wrapAll_of_noneNestedAt {map : Fields} (hmap : NoneNestedAt scope map) (count : Nat) :
    wrapAll scope filter map count = (map, count) := by
  have hvalues : ∀ entry ∈ map,
      (entry.1, wrapValue scope filter entry.1 entry.2) = entry := fun entry hentry => by
    rw [wrapValue_of_not_nested scope filter (hmap entry hentry)]
  have hcount : map.countP (fun entry => isNestedAt scope entry.2) = 0 :=
    List.countP_eq_zero.mpr fun entry hentry => by simp [hmap entry hentry]
  rw [wrapAll_eq, List.map_congr_left hvalues, List.map_id', hcount, Nat.add_zero]

/-- Putting the value back that is there changes nothing. -/
theorem modify_eq_self {key : String} {value : Json} {fields : Fields}
    (hget : Table.get? key fields = some value) :
    Table.modify key (fun _ => value) fields = fields := by
  induction fields with
  | nil => rfl
  | cons entry rest ih =>
      obtain ⟨k, v⟩ := entry
      rw [Table.get?_cons] at hget
      rw [Table.modify]
      split at hget
      next heq =>
        simp only [Option.some.injEq] at hget
        rw [if_pos heq, hget]
      next hne => rw [if_neg hne, ih hget]

theorem wrapInside_of_nothingToWrap {fields : Fields} (hfields : NothingToWrap scope fields)
    (count : Nat) : wrapInside scope filter fields count = (fields, count) := by
  unfold wrapInside
  split
  next map hget =>
    rw [wrapAll_of_noneNestedAt scope filter (hfields map hget)]
    simp only [modify_eq_self hget]
  next => rfl

theorem quiet_arr_iff (items : List Json) :
    Quiet scope (.arr items) ↔ ∀ item ∈ items, Quiet scope item :=
  everywhere_arr_iff items

theorem quiet_obj_iff (fields : Fields) :
    Quiet scope (.obj fields) ↔
      NothingToWrap scope fields ∧ ∀ entry ∈ fields, Quiet scope entry.2 := by
  simp [Quiet, everywhere_obj_iff]

/-- A quiet tree is walked to its end and left alone. -/
theorem walk_injector_of_quiet {tree : Json} (hquiet : Quiet scope tree) {allowance : Nat}
    (hdepth : tree.depth ≤ allowance) (count : Nat) :
    walk (injector scope filter) allowance tree count = some (tree, count) := by
  induction tree using Json.memberInduction generalizing allowance with
  | null | bool | num | str => cases allowance <;> rfl
  | arr items ih =>
      -- an array has depth, so there is a unit of the allowance to take
      rw [depth] at hdepth
      obtain ⟨rest, rfl⟩ := Nat.exists_eq_add_of_lt hdepth
      have hitems := (quiet_arr_iff scope items).mp hquiet
      refine walk_arr_of_walkItems (walkItems_eq_self fun item hitem => ?_)
      have hle := depth_le_depthItems hitem
      exact ih item hitem (hitems item hitem) (by omega)
  | obj fields ih =>
      rw [depth] at hdepth
      obtain ⟨rest, rfl⟩ := Nat.exists_eq_add_of_lt hdepth
      obtain ⟨hroot, hmembers⟩ := (quiet_obj_iff scope fields).mp hquiet
      refine walk_obj_of_walkFields (wrapInside_of_nothingToWrap scope filter hroot count)
        (walkFields_eq_self fun entry hentry => ?_)
      have hle := depth_le_depthFields hentry
      exact ih entry hentry (hmembers entry hentry) (by omega)

end TenderSearch.Tree
