import TenderSearch.Clause.Fragment
import TenderSearch.Proofs.Json.WellFormed
import TenderSearch.Proofs.Table.Ascending
import TenderSearch.Proofs.Tree.InjectionEnds
import TenderSearch.Proofs.Tree.InjectionGrowth

/-!
# Injections can be undone

An injection wraps on the way down. Going up again, every layer can be found and taken
out, because wrapping does not change what an aggregation is nested at, and the layer
tells whether there were children. So no two trees become the same one.
-/

namespace TenderSearch.Tree

open Json Fragment

/-! ## Taking layers out again -/

/-- An aggregation with what is below its filter layer as its children. -/
def unwrap (aggregation : Fields) : Fields :=
  match Table.get? "aggregations" aggregation with
  | some (.obj [(_, layer)]) =>
      match layer.get? "aggregations" with
      | some children => Table.insert "aggregations" children aggregation
      | none => Table.erase "aggregations" aggregation
  | _ => aggregation

def unwrapValue (scope : String) : Json → Json
  | .obj aggregation =>
      if nestedAt scope aggregation then .obj (unwrap aggregation) else .obj aggregation
  | value => value

/-- Takes the layers out of the map of aggregations that an object holds. -/
def unwrapInside (scope : String) (fields : Fields) : Fields :=
  match Table.get? "aggregations" fields with
  | some (.obj map) =>
      Table.modify "aggregations"
        (fun _ => .obj (map.map fun entry => (entry.1, unwrapValue scope entry.2))) fields
  | _ => fields

mutual

/-- Takes the layers of an injection out of a tree, from the inside out. -/
def restore (scope : String) : Json → Json
  | .arr items => .arr (restoreItems scope items)
  | .obj fields => .obj (unwrapInside scope (restoreFields scope fields))
  | value => value

def restoreItems (scope : String) : List Json → List Json
  | [] => []
  | item :: rest => restore scope item :: restoreItems scope rest

def restoreFields (scope : String) : List (String × Json) → List (String × Json)
  | [] => []
  | (key, value) :: rest => (key, restore scope value) :: restoreFields scope rest

end

variable {scope : String} {filter : Json}

theorem nestedAt_wrap (key : String) (aggregation : Fields) :
    nestedAt scope (wrap filter key aggregation) = nestedAt scope aggregation := by
  rw [nestedAt, nestedAt, at?, at?, get?, get?, wrap,
    Table.get?_insert_of_ne (by decide)]

theorem get?_filterLayer (children : Option Json) :
    (filterLayer filter children).get? "aggregations" = children := by
  cases children <;> rfl

/-- Wrapping loses nothing: the layer tells whether there were children. -/
theorem unwrap_wrap {aggregation : Fields} (haggregation : Table.Ascending aggregation)
    (key : String) : unwrap (wrap filter key aggregation) = aggregation := by
  have hwrap : Table.Ascending (wrap filter key aggregation) := haggregation.insert _ _
  have hothers : ∀ name, "aggregations" ≠ name →
      Table.get? name (wrap filter key aggregation) = Table.get? name aggregation := fun name hne =>
    Table.get?_insert_of_ne hne _ aggregation
  rw [unwrap, wrap, Table.get?_insert_self, ← wrap]
  simp only [get?_filterLayer]
  cases hchildren : Table.get? "aggregations" aggregation with
  | some children =>
      refine (hwrap.insert _ _).ext haggregation fun name => ?_
      by_cases hname : "aggregations" = name
      · rw [← hname, Table.get?_insert_self, hchildren]
      · rw [Table.get?_insert_of_ne hname, hothers name hname]
  | none =>
      refine (hwrap.erase _).ext haggregation fun name => ?_
      by_cases hname : "aggregations" = name
      · rw [← hname, Table.get?_erase_self, hchildren]
      · rw [Table.get?_erase_of_ne hname, hothers name hname]

theorem unwrapValue_wrapValue {value : Json} (hvalue : value.WellFormed) (key : String) :
    unwrapValue scope (wrapValue scope filter key value) = value := by
  cases value with
  | obj aggregation =>
      obtain ⟨haggregation, -⟩ := (wellFormed_obj_iff aggregation).mp hvalue
      rw [wrapValue]
      cases hnested : nestedAt scope aggregation with
      | true =>
          rw [if_pos rfl, unwrapValue, nestedAt_wrap, hnested, if_pos rfl,
            unwrap_wrap haggregation]
      | false => simp [unwrapValue, hnested]
  | _ => rfl

/-- What is wrapped on entering an object is unwrapped on leaving it. -/
theorem unwrapInside_wrapInside {fields : Fields} (hfields : (Json.obj fields).WellFormed)
    (count : Nat) : unwrapInside scope (wrapInside scope filter fields count).1 = fields := by
  unfold wrapInside
  split
  next map hget =>
    obtain ⟨-, hentries⟩ := (wellFormed_obj_iff map).mp (wellFormed_of_get? hfields hget)
    have hrestored : (map.map fun entry => (entry.1, wrapValue scope filter entry.1 entry.2)).map
        (fun entry => (entry.1, unwrapValue scope entry.2)) = map := by
      rw [List.map_map]
      refine (List.map_congr_left fun entry hentry => ?_).trans (List.map_id _)
      simp [unwrapValue_wrapValue (hentries entry hentry)]
    have hwrapped : Table.get? "aggregations" (Table.modify "aggregations"
        (fun _ => Json.obj (wrapAll scope filter map count).1) fields) =
          some (.obj (wrapAll scope filter map count).1) := by
      rw [Table.get?_modify_self, hget, Option.map_some]
    simp only [unwrapInside, hwrapped]
    rw [Table.modify_modify, wrapAll_eq, hrestored]
    exact modify_eq_self hget
  next hnone =>
    unfold unwrapInside
    split
    next map hget => exact absurd hget (hnone map)
    next => rfl

/-! ## Well-formed values -/

theorem wellFormed_wrap (hfilter : filter.WellFormed) {aggregation : Fields}
    (haggregation : (Json.obj aggregation).WellFormed) (key : String) :
    (Json.obj (wrap filter key aggregation)).WellFormed := by
  have hlayer : (filterLayer filter (Table.get? "aggregations" aggregation)).WellFormed := by
    cases hchildren : Table.get? "aggregations" aggregation with
    | none => simpa [filterLayer, wellFormed_obj_iff, Table.Ascending] using hfilter
    | some children =>
        have hchildrenForm := wellFormed_of_get? haggregation hchildren
        have hkeys : "aggregations" < "filter" := by decide
        refine (wellFormed_obj_iff _).mpr ⟨?_, ?_⟩
        · exact Table.ascending_cons_iff.mpr
            ⟨List.forall_mem_singleton.mpr hkeys, List.pairwise_singleton _ _⟩
        · exact List.forall_mem_cons.mpr ⟨hchildrenForm, List.forall_mem_singleton.mpr hfilter⟩
  obtain ⟨hascending, hentries⟩ := (wellFormed_obj_iff aggregation).mp haggregation
  refine (wellFormed_obj_iff _).mpr ⟨hascending.insert _ _, fun entry hentry => ?_⟩
  rcases Table.eq_or_mem_of_mem_insert hentry with rfl | hmem
  · simpa [wellFormed_obj_iff, Table.Ascending] using hlayer
  · exact hentries entry hmem

theorem wellFormed_wrapValue (hfilter : filter.WellFormed) {value : Json}
    (hvalue : value.WellFormed) (key : String) :
    (wrapValue scope filter key value).WellFormed := by
  cases value with
  | obj aggregation =>
      rw [wrapValue]
      split
      next => exact wellFormed_wrap hfilter hvalue key
      next => exact hvalue
  | _ => exact hvalue

theorem wellFormed_wrapInside (hfilter : filter.WellFormed) {fields : Fields}
    (hfields : (Json.obj fields).WellFormed) (count : Nat) :
    (Json.obj (wrapInside scope filter fields count).1).WellFormed := by
  unfold wrapInside
  split
  next map hget =>
    obtain ⟨hmapKeys, hentries⟩ := (wellFormed_obj_iff map).mp (wellFormed_of_get? hfields hget)
    obtain ⟨hkeys, hmembers⟩ := (wellFormed_obj_iff fields).mp hfields
    refine (wellFormed_obj_iff _).mpr ⟨hkeys.modify _ _, fun entry hentry => ?_⟩
    rcases Table.mem_or_eq_of_mem_modify hentry with hmem | ⟨_, -, rfl⟩
    · exact hmembers entry hmem
    · rw [wrapAll_eq, wellFormed_obj_iff, Table.Ascending, List.pairwise_map]
      refine ⟨hmapKeys, List.forall_mem_map.mpr fun entry hentry => ?_⟩
      exact wellFormed_wrapValue hfilter (hentries entry hentry) entry.1
  next => exact hfields

/-! ## Undoing a walk -/

section Steps

variable {step : Json → Nat → Option (Json × Nat)} {count total : Nat}

theorem restoreItems_of_walkItems {items walked : List Json}
    (hstep : ∀ item ∈ items, ∀ count item' total,
      step item count = some (item', total) → restore scope item' = item)
    (hwalk : walkItems step items count = some (walked, total)) :
    restoreItems scope walked = items := by
  induction items generalizing count walked with
  | nil =>
      cases hwalk
      rfl
  | cons item rest ih =>
      obtain ⟨hitem, hrest⟩ := List.forall_mem_cons.mp hstep
      obtain ⟨item', _, rest', hfirst, hlater, rfl⟩ := walkItems_cons_eq_some hwalk
      rw [restoreItems, hitem _ _ _ hfirst, ih hrest hlater]

theorem restoreFields_of_walkFields {fields walked : Fields}
    (hstep : ∀ entry ∈ fields, ∀ count value total,
      step entry.2 count = some (value, total) → restore scope value = entry.2)
    (hwalk : walkFields step (fun _ => true) fields count = some (walked, total)) :
    restoreFields scope walked = fields := by
  induction fields generalizing count walked with
  | nil =>
      cases hwalk
      rfl
  | cons entry rest ih =>
      obtain ⟨hentry, hrest⟩ := List.forall_mem_cons.mp hstep
      obtain ⟨value, _, rest', hfirst, hlater, rfl⟩ := walkFields_cons_eq_some rfl hwalk
      rw [restoreFields, hentry _ _ _ hfirst, ih hrest hlater]

end Steps

/-- Whatever the walk of an injection comes to, the tree can be restored from it. -/
theorem restore_of_walk (hfilter : filter.WellFormed) {allowance : Nat} {tree walked : Json}
    (htree : tree.WellFormed) {count total : Nat}
    (hwalk : walk (injector scope filter) allowance tree count = some (walked, total)) :
    restore scope walked = tree := by
  -- on the allowance, since the walk goes on into the layers that it has made
  induction allowance generalizing tree walked count total with
  | zero =>
      cases tree with
      | arr items => cases hwalk
      | obj fields => cases hwalk
      | _ =>
          cases hwalk
          rfl
  | succ allowance ih =>
      cases tree with
      | arr items =>
          rw [wellFormed_arr_iff] at htree
          obtain ⟨items', hitems, rfl⟩ := walk_arr_eq_some hwalk
          rw [restore, restoreItems_of_walkItems (fun item hitem _ _ _ hstep =>
            ih (htree item hitem) hstep) hitems]
      | obj fields =>
          have hentered : (Json.obj (wrapInside scope filter fields count).1).WellFormed :=
            wellFormed_wrapInside hfilter htree count
          obtain ⟨-, hmembers⟩ := (wellFormed_obj_iff _).mp hentered
          obtain ⟨fields', _, hfields, rfl, -⟩ := walk_obj_eq_some hwalk
          have hundone : restoreFields scope fields' =
              (wrapInside scope filter fields count).1 :=
            restoreFields_of_walkFields (fun entry hentry _ _ _ hstep =>
              ih (hmembers entry hentry) hstep) hfields
          simp only [injector, restore]
          rw [hundone, unwrapInside_wrapInside htree]
      | _ =>
          cases hwalk
          rfl

/-! ## Injections -/

/-- Injecting a quiet filter into a tree comes to an end, and the tree can be restored
from what comes out, so that two trees with the same result are the same. Nothing is
counted exactly if the tree is unchanged. -/
theorem inject_undone (scope : String) {filter : Json} (hfilter : filter.WellFormed)
    (hquiet : Quiet scope filter) :
    (∀ tree : Json, tree.WellFormed → ∃ injected count,
      inject scope filter tree = some (injected, count) ∧ restore scope injected = tree ∧
      (count = 0 ↔ injected = tree)) ∧
    ∀ first second : Json, first.WellFormed → second.WellFormed →
      ∀ injected firstCount secondCount,
        inject scope filter first = some (injected, firstCount) →
        inject scope filter second = some (injected, secondCount) → first = second := by
  constructor
  · intro tree htree
    obtain ⟨⟨injected, count⟩, hinject⟩ := Option.isSome_iff_exists.mp
      ((inject_isSome_iff scope filter tree).mpr (.inl hquiet))
    refine ⟨injected, count, hinject, restore_of_walk hfilter htree hinject, ?_⟩
    rcases grows_walk hinject with hsame | ⟨hsize, hcount⟩
    · obtain ⟨rfl, rfl⟩ := Prod.mk.inj hsame
      exact iff_of_true rfl rfl
    · refine iff_of_false (Nat.ne_of_gt hcount) ?_
      rintro rfl
      exact Nat.lt_irrefl _ hsize
  · intro first second hfirst hsecond injected _ _ hinjectFirst hinjectSecond
    calc first = restore scope injected := (restore_of_walk hfilter hfirst hinjectFirst).symm
      _ = second := restore_of_walk hfilter hsecond hinjectSecond

/-- Aggregations with and without children, one with a layer already, and one that is
called like a map of aggregations and is read as such a map, too. -/
def overlapping : Json :=
  .obj [("aggregations", .obj [
    ("aggregations", .obj [
      ("aggregations", .obj [("c", .obj [("nested", .obj [("path", .str "lots")])])]),
      ("nested", .obj [("nested", .obj [("path", .str "lots")]), ("path", .str "lots")])]),
    ("bids", .obj [("aggregations", .null), ("nested", .obj [("path", .str "lots")])]),
    ("lots", .obj [
      ("aggregations", .obj [("lots_filter", .obj [("filter", matchAll)])]),
      ("nested", .obj [("path", .str "lots")])])])]

/-- Five aggregations are wrapped here, one of them because it stands in the other role.
All of it can be undone, and no other tree becomes the same one. -/
theorem inject_undone_overlapping :
    matchAll.WellFormed ∧ Quiet "lots" matchAll ∧ overlapping.WellFormed ∧
    ∃ injected, inject "lots" matchAll overlapping = some (injected, 5) ∧
      restore "lots" injected = overlapping ∧ injected ≠ overlapping ∧
      ∀ other : Json, other.WellFormed → ∀ count,
        inject "lots" matchAll other = some (injected, count) → other = overlapping := by
  have hfilter : matchAll.WellFormed := by
    simp [matchAll, wellFormed_obj_iff, Table.Ascending]
  have hquiet : Quiet "lots" matchAll := by
    simp [matchAll, quiet_obj_iff, NothingToWrap, Table.get?]
  have hform : overlapping.WellFormed := by
    simp only [overlapping, matchAll, WellFormed, WellFormedFields, Table.Ascending]
    decide
  obtain ⟨hundone, hinjective⟩ := inject_undone "lots" hfilter hquiet
  obtain ⟨injected, count, hinject, hrestored, hcount⟩ := hundone overlapping hform
  have hcounted : (inject "lots" matchAll overlapping).map Prod.snd = some 5 := rfl
  rw [hinject, Option.map_some, Option.some.injEq] at hcounted
  subst hcounted
  refine ⟨hfilter, hquiet, hform, injected, hinject, hrestored, fun hsame => ?_, ?_⟩
  · exact absurd (hcount.mpr hsame) (by decide)
  · intro other hother _ hinjectOther
    exact hinjective other overlapping hother hform injected _ _ hinjectOther hinject

end TenderSearch.Tree
