import TenderSearch.Proofs.Tree.Planting
import TenderSearch.Proofs.Tree.WalkSteps
import TenderSearch.Tree.Recording

/-!
# What a recorded walk records

A recorded walk takes the turns of the tree that it leaves behind. This is the tree
it was given, with the planted entry in the first object. Only when the walk enters
that object has the entry not been planted yet.
-/

namespace TenderSearch.Tree

open Json

variable {refused : List String}

/-- The keys of the object at the end of a path. -/
def keysAt (refused : List String) (path : List PathStep) (tree : Json) : List String :=
  ((objectAt? refused path tree).getD []).map Prod.fst

/-- What is recorded at a turn if nothing is planted. -/
def eventAt (refused : List String) (tree : Json) : Turn → Event
  | .enter path => .enter (keysAt refused path tree)
  | .leave path => .leave (keysAt refused path tree)

/-- What is recorded if nothing is planted. -/
def records (refused : List String) (tree : Json) : List Event :=
  (turns refused tree).map (eventAt refused tree)

/-! ## Walks on which nothing is planted -/

theorem eventAt_under {step : PathStep} {tree member : Json}
    (hrefused : step.isRefused refused = false) (hmember : member? step tree = some member)
    (turn : Turn) : eventAt refused tree (turn.under step) = eventAt refused member turn := by
  cases turn <;> simp only [Turn.under, eventAt, keysAt, objectAt?_cons hrefused hmember]

theorem map_eventAt_branches {tree : Json} (htree : tree.WellFormed) :
    ((branches refused tree).flatMap (turnsBehind refused)).map (eventAt refused tree) =
      (branches refused tree).flatMap fun branch => records refused branch.2 := by
  rw [List.map_flatMap]
  apply List.flatMap_congr
  intro branch hbranch
  obtain ⟨hrefused, hmember⟩ := (mem_branches htree).mp hbranch
  rw [turnsBehind, List.map_map]
  apply List.map_congr_left
  intro turn _
  exact eventAt_under hrefused hmember turn

theorem records_arr {items : List Json} (hitems : (Json.arr items).WellFormed) :
    records refused (.arr items) = items.flatMap (records refused) := by
  have hmembers : (branches refused (.arr items)).map Prod.snd = items := by
    apply List.ext_getElem?
    intro index
    simp [branches, Function.comp_def]
  rw [records, turns_arr, map_eventAt_branches hitems, ← List.flatMap_map, hmembers]

theorem records_obj {fields : Fields} (hfields : (Json.obj fields).WellFormed) :
    records refused (.obj fields) =
      .enter (fields.map Prod.fst) ::
        (fields.filter fun entry => !refused.contains entry.1).flatMap
          (fun entry => records refused entry.2) ++
        [.leave (fields.map Prod.fst)] := by
  rw [records, turns_obj, List.map_append, List.map_cons, map_eventAt_branches hfields,
    branches, List.flatMap_map]
  rfl

/-- Items on which nothing changes but what is recorded. -/
theorem walkItems_recording {step : Json → Recording → Option (Json × Recording)}
    {out : Json → List Event} {items : List Json}
    (hstep : ∀ item ∈ items, ∀ events,
      step item ⟨events, none⟩ = some (item, ⟨events ++ out item, none⟩))
    (events : List Event) :
    walkItems step items ⟨events, none⟩ =
      some (items, ⟨events ++ items.flatMap out, none⟩) := by
  induction items generalizing events with
  | nil => simp [walkItems]
  | cons item rest ih =>
      obtain ⟨hitem, hrest⟩ := List.forall_mem_cons.mp hstep
      simp [walkItems, hitem, ih hrest]

theorem walkFields_recording {step : Json → Recording → Option (Json × Recording)}
    {descends : String → Bool} {out : Json → List Event} {fields : Fields}
    (hstep : ∀ entry ∈ fields, ∀ events,
      step entry.2 ⟨events, none⟩ = some (entry.2, ⟨events ++ out entry.2, none⟩))
    (events : List Event) :
    walkFields step descends fields ⟨events, none⟩ =
      some (fields, ⟨events ++ (fields.filter fun entry => descends entry.1).flatMap
        (fun entry => out entry.2), none⟩) := by
  induction fields generalizing events with
  | nil => simp [walkFields]
  | cons entry rest ih =>
      obtain ⟨hentry, hrest⟩ := List.forall_mem_cons.mp hstep
      cases hdescends : descends entry.1 <;> simp [walkFields, hentry, ih hrest, hdescends]

/-- Once an object has been entered, what follows is recorded as on a walk around what
it has become. -/
theorem walk_obj_recording {fields entered : Fields} {recording : Recording}
    {events : List Event} {allowance : Nat}
    (henter : (recorder refused).enter fields recording = (entered, ⟨events, none⟩))
    (hentered : (Json.obj entered).WellFormed)
    (hsteps : ∀ entry ∈ entered, ∀ events,
      walk (recorder refused) allowance entry.2 ⟨events, none⟩ =
        some (entry.2, ⟨events ++ records refused entry.2, none⟩)) :
    walk (recorder refused) (allowance + 1) (.obj fields) recording =
      some (.obj entered, ⟨events ++ (records refused (.obj entered)).tail, none⟩) := by
  rw [walk_obj_of_walkFields henter (walkFields_recording hsteps events), records_obj hentered]
  simp [recorder]

theorem walk_recording {tree : Json} (htree : tree.WellFormed) {allowance : Nat}
    (hallowance : tree.depth ≤ allowance) (events : List Event) :
    walk (recorder refused) allowance tree ⟨events, none⟩ =
      some (tree, ⟨events ++ records refused tree, none⟩) := by
  induction tree using Json.memberInduction generalizing allowance events with
  | arr items ih =>
      cases allowance with
      | zero => exact absurd hallowance (Nat.not_succ_le_zero _)
      | succ allowance =>
          rw [records_arr htree]
          apply walk_arr_of_walkItems
          apply walkItems_recording
          intro item hitem
          apply ih item hitem ((wellFormed_arr_iff items).mp htree item hitem)
          exact Nat.le_trans (depth_le_depthItems hitem) (Nat.le_of_succ_le_succ hallowance)
  | obj fields ih =>
      cases allowance with
      | zero => exact absurd hallowance (Nat.not_succ_le_zero _)
      | succ allowance =>
          have hsteps : ∀ entry ∈ fields, ∀ events,
              walk (recorder refused) allowance entry.2 ⟨events, none⟩ =
                some (entry.2, ⟨events ++ records refused entry.2, none⟩) := by
            intro entry hentry
            apply ih entry hentry (((wellFormed_obj_iff fields).mp htree).2 entry hentry)
            exact Nat.le_trans (depth_le_depthFields hentry) (Nat.le_of_succ_le_succ hallowance)
          rw [walk_obj_recording rfl htree hsteps, records_obj htree]
          simp
  | _ => cases allowance <;> simp [walk, records, turns]

/-! ## Walks on which an entry is planted -/

theorem walk_of_firstObject?_eq_none {tree : Json} (hnone : firstObject? tree = none)
    {allowance : Nat} (hallowance : tree.depth ≤ allowance) (recording : Recording) :
    walk (recorder refused) allowance tree recording = some (tree, recording) := by
  induction tree using Json.memberInduction generalizing allowance with
  | arr items ih =>
      cases allowance with
      | zero => exact absurd hallowance (Nat.not_succ_le_zero _)
      | succ allowance =>
          apply walk_arr_of_walkItems
          apply walkItems_eq_self
          intro item hitem
          apply ih item hitem (firstObject?_arr_eq_none hnone item hitem)
          exact Nat.le_trans (depth_le_depthItems hitem) (Nat.le_of_succ_le_succ hallowance)
  | obj fields => cases hnone
  | _ => cases allowance <;> rfl

theorem keysAt_item (before after : List Json) (item : Json) (rest : List PathStep) :
    keysAt refused (.item before.length :: rest) (.arr (before ++ item :: after)) =
      keysAt refused rest item := by
  have hmember : member? (.item before.length) (.arr (before ++ item :: after)) = some item := by
    simp [member?, list?]
  rw [keysAt, objectAt?_cons rfl hmember]
  rfl

/-- Behind the turn at the first object there are the turns behind it in the planted
item, and then those in the other items. -/
theorem tail_records_arr {key : String} {value item : Json} {before after : List Json}
    {rest : List PathStep} (hbefore : ∀ other ∈ before, firstObject? other = none)
    (hitem : firstObject? item = some rest)
    (hplanted : (Json.arr (before ++ plantAt key value rest item :: after)).WellFormed) :
    (records refused (.arr (before ++ plantAt key value rest item :: after))).tail =
      (records refused (plantAt key value rest item)).tail ++
        after.flatMap (records refused) := by
  have hnothing : before.flatMap (records refused) = [] := by
    apply List.flatMap_eq_nil_iff.mpr
    intro member hmember
    rw [records, turns_eq_nil (hbefore member hmember), List.map_nil]
  have hnonempty : records refused (plantAt key value rest item) ≠ [] := by
    intro hnil
    have hturns := head?_turns refused (plantAt key value rest item)
    rw [List.map_eq_nil_iff.mp hnil, firstObject?_plantAt hitem] at hturns
    cases hturns
  rw [records_arr hplanted, List.flatMap_append, hnothing, List.flatMap_cons, List.nil_append,
    List.tail_append_of_ne_nil hnonempty]

/-- Steps of which only one does something that is not just recorded, and those before
it do nothing at all. -/
theorem walkItems_first {step : Json → Recording → Option (Json × Recording)}
    {out : Json → List Event} {before after : List Json} {item walked : Json}
    {recording : Recording} {events : List Event}
    (hbefore : ∀ other ∈ before, step other recording = some (other, recording))
    (hitem : step item recording = some (walked, ⟨events, none⟩))
    (hafter : ∀ other ∈ after, ∀ events,
      step other ⟨events, none⟩ = some (other, ⟨events ++ out other, none⟩)) :
    walkItems step (before ++ item :: after) recording =
      some (before ++ walked :: after, ⟨events ++ after.flatMap out, none⟩) := by
  apply walkItems_append (walkItems_eq_self hbefore)
  simp [walkItems, hitem, walkItems_recording hafter]

/-- The entry is planted after the first object has been entered, and all that follows
is recorded as on a walk around the planted tree. -/
theorem walk_planting {key : String} {value : Json} (hvalue : value.WellFormed) {tree : Json}
    (htree : tree.WellFormed) {allowance : Nat}
    (hallowance : tree.depth + value.depth ≤ allowance) {first : List PathStep}
    (hfirst : firstObject? tree = some first) (events : List Event) :
    walk (recorder refused) allowance tree ⟨events, some (key, value)⟩ =
      some (plantAt key value first tree,
        ⟨events ++ .enter (keysAt refused first tree) ::
          (records refused (plantAt key value first tree)).tail, none⟩) := by
  induction tree using Json.memberInduction generalizing allowance first events with
  | arr items ih =>
      cases allowance with
      | zero =>
          rw [depth] at hallowance
          omega
      | succ allowance =>
          obtain ⟨before, item, after, rest, rfl, hbefore, hitem, rfl⟩ :=
            firstObject?_arr_eq_some_iff.mp hfirst
          have hitems := (wellFormed_arr_iff _).mp htree
          have hdepths : ∀ member ∈ before ++ item :: after,
              member.depth + value.depth ≤ allowance := by
            intro member hmember
            have hmax := depth_le_depthItems hmember
            rw [depth] at hallowance
            omega
          have hmem : item ∈ before ++ item :: after := by simp
          have hplanted := wellFormed_plantAt key hvalue htree
            (.item before.length :: rest)
          rw [plantAt_item] at hplanted ⊢
          have hbehind : ∀ other ∈ after, other ∈ before ++ item :: after := fun other hother =>
            List.mem_append_right _ (List.mem_cons_of_mem _ hother)
          have hsame : ∀ other ∈ before,
              walk (recorder refused) allowance other ⟨events, some (key, value)⟩ =
                some (other, ⟨events, some (key, value)⟩) := by
            intro other hother
            have hdepth := hdepths other (List.mem_append_left _ hother)
            exact walk_of_firstObject?_eq_none (hbefore other hother) (by omega) _
          have hrecorded : ∀ other ∈ after, ∀ events,
              walk (recorder refused) allowance other ⟨events, none⟩ =
                some (other, ⟨events ++ records refused other, none⟩) := by
            intro other hother
            have hdepth := hdepths other (hbehind other hother)
            exact walk_recording (hitems other (hbehind other hother)) (by omega)
          have hrest := ih item hmem (hitems item hmem) (hdepths item hmem) hitem events
          rw [tail_records_arr hbefore hitem hplanted, keysAt_item]
          apply walk_arr_of_walkItems
          rw [walkItems_first hsame hrest hrecorded, List.append_assoc, List.cons_append]
  | obj fields ih =>
      cases allowance with
      | zero =>
          rw [depth] at hallowance
          omega
      | succ allowance =>
          obtain rfl : [] = first := Option.some.inj hfirst
          have hplanted : (Json.obj (Table.insert key value fields)).WellFormed :=
            wellFormed_plantAt key hvalue htree []
          have hsteps : ∀ entry ∈ Table.insert key value fields, ∀ events,
              walk (recorder refused) allowance entry.2 ⟨events, none⟩ =
                some (entry.2, ⟨events ++ records refused entry.2, none⟩) := by
            intro entry hentry
            apply walk_recording (((wellFormed_obj_iff _).mp hplanted).2 entry hentry)
            rw [depth] at hallowance
            rcases Table.eq_or_mem_of_mem_insert hentry with rfl | hmem
            · show value.depth ≤ allowance
              omega
            · have hmax := depth_le_depthFields hmem
              omega
          rw [walk_obj_recording rfl hplanted hsteps, plantAt]
          simp [keysAt, objectAt?, fields?]
  | _ => cases hfirst

/-! ## Recorded walks -/

/-- The keys that are recorded on entering an object. At the first one they are those
that it had before. -/
def enteredKeys (refused : List String) (plant : Option (String × Json)) (tree : Json)
    (path : List PathStep) : List String :=
  if firstObject? tree = some path then keysAt refused path tree
  else keysAt refused path (planted plant tree)

/-- The keys that are recorded on leaving an object. -/
def leftKeys (refused : List String) (plant : Option (String × Json)) (tree : Json)
    (path : List PathStep) : List String :=
  keysAt refused path (planted plant tree)

def recordedAt (refused : List String) (plant : Option (String × Json)) (tree : Json) :
    Turn → Event
  | .enter path => .enter (enteredKeys refused plant tree path)
  | .leave path => .leave (leftKeys refused plant tree path)

/-- What is recorded on leaving an object is what was recorded on entering it, with the
planted key if it is the first one. -/
theorem leftKeys_eq {plant : Option (String × Json)} {tree : Json} (htree : tree.WellFormed)
    (path : List PathStep) :
    leftKeys refused plant tree path =
      if firstObject? tree = some path then
        plant.elim id (fun entry => withKey entry.1) (enteredKeys refused plant tree path)
      else enteredKeys refused plant tree path := by
  split
  next hfirst =>
    obtain ⟨fields, hobject⟩ := exists_object_of_firstObject? refused htree hfirst
    rw [enteredKeys, if_pos hfirst]
    cases plant with
    | none => rfl
    | some entry =>
        obtain ⟨key, value⟩ := entry
        have hascending := ((wellFormed_obj_iff _).mp (wellFormed_of_objectAt? htree hobject)).1
        have hplanted := objectAt?_plantAt key value hobject []
        rw [List.append_nil] at hplanted
        rw [leftKeys, planted_some hfirst, keysAt, hplanted, keysAt, hobject]
        exact map_fst_insert key value hascending
  next hfirst => rw [enteredKeys, if_neg hfirst, leftKeys]

/-- Around the planted tree the turn at the first object is the only one at which it
makes a difference that the entry has not been there from the start. -/
theorem map_recordedAt {key : String} {value tree : Json} (htree : tree.WellFormed)
    (hvalue : value.WellFormed) {first : List PathStep}
    (hfirst : firstObject? tree = some first) :
    (turns refused (planted (some (key, value)) tree)).map
        (recordedAt refused (some (key, value)) tree) =
      .enter (keysAt refused first tree) ::
        (records refused (planted (some (key, value)) tree)).tail := by
  have hplanted := wellFormed_plantAt key hvalue htree first
  have honce := (isTour_turns refused hplanted).once
  have hhead := head?_turns refused (plantAt key value first tree)
  rw [firstObject?_plantAt hfirst] at hhead
  obtain ⟨later, hturns⟩ := List.head?_eq_some_iff.mp hhead
  rw [hturns, List.nodup_cons] at honce
  rw [planted_some hfirst, records, hturns, List.map_cons, List.map_cons, List.tail_cons,
    recordedAt, enteredKeys, if_pos hfirst]
  congr 1
  apply List.map_congr_left
  intro turn hturn
  cases turn with
  | leave path => rw [recordedAt, leftKeys, planted_some hfirst]; rfl
  | enter path =>
      have hne : firstObject? tree ≠ some path := by
        intro heq
        rw [hfirst] at heq
        exact honce.1 (Option.some.inj heq ▸ hturn)
      rw [recordedAt, enteredKeys, if_neg hne, planted_some hfirst]
      rfl

theorem recordedWalk_eq {plant : Option (String × Json)} {tree : Json} (htree : tree.WellFormed)
    (hplant : ∀ key value, plant = some (key, value) → value.WellFormed) :
    recordedWalk refused plant tree = some (planted plant tree,
      (turns refused (planted plant tree)).map (recordedAt refused plant tree)) := by
  cases plant with
  | none =>
      have hevents : recordedAt refused none tree = eventAt refused tree := by
        funext turn
        cases turn <;> simp [recordedAt, enteredKeys, leftKeys, planted, eventAt]
      have hdepth : tree.depth ≤ tree.depth + plantDepth none + 1 := by omega
      rw [recordedWalk, walk_recording htree hdepth, hevents]
      rfl
  | some entry =>
      obtain ⟨key, value⟩ := entry
      have hvalue := hplant key value rfl
      have hdepth : tree.depth + value.depth ≤
          tree.depth + plantDepth (some (key, value)) + 1 := Nat.le_succ _
      cases hfirst : firstObject? tree with
      | none =>
          have hplanted : planted (some (key, value)) tree = tree := by
            simp only [planted, hfirst]
          rw [recordedWalk, walk_of_firstObject?_eq_none hfirst (by omega), hplanted,
            turns_eq_nil hfirst]
          rfl
      | some first =>
          rw [recordedWalk, walk_planting hvalue htree hdepth hfirst,
            map_recordedAt htree hvalue hfirst, planted_some hfirst]
          rfl

/-- A recorded walk takes the turns of a tour around the planted tree. It begins at the
first object; on leaving that one the planted key has come to the keys of its entering,
and on leaving any other object nothing has. What the planted value holds is toured as
well, unless the planted key is refused. -/
theorem recordedWalk_tours_planted_tree (refused : List String)
    {plant : Option (String × Json)} {tree : Json} (htree : tree.WellFormed)
    (hplant : ∀ key value, plant = some (key, value) → value.WellFormed) :
    ∃ turns, IsTour refused (planted plant tree) turns ∧
      turns.head? = (firstObject? tree).map Turn.enter ∧
      recordedWalk refused plant tree =
        some (planted plant tree, turns.map (recordedAt refused plant tree)) ∧
      (∀ path, leftKeys refused plant tree path =
        if firstObject? tree = some path then
          plant.elim id (fun entry => withKey entry.1) (enteredKeys refused plant tree path)
        else enteredKeys refused plant tree path) ∧
      ∀ first key value rest, firstObject? tree = some first → plant = some (key, value) →
        objectAt? refused (first ++ .key key :: rest) (planted plant tree) =
          if refused.contains key then none else objectAt? refused rest value := by
  refine ⟨turns refused (planted plant tree), isTour_turns refused (wellFormed_planted htree hplant),
    ?_, recordedWalk_eq htree hplant, leftKeys_eq htree, ?_⟩
  · rw [head?_turns]
    cases hfirst : firstObject? tree with
    | none => simp only [planted, hfirst]
    | some first =>
        unfold planted
        split
        next hsome =>
          obtain rfl : first = _ := Option.some.inj (hfirst.symm.trans hsome)
          rw [firstObject?_plantAt hfirst]
        next => rw [hfirst]
  · rintro first key value rest hfirst rfl
    exact objectAt?_planted htree hfirst rest

/-- The first object is behind a number, has a refused field, and gets an object with an
object inside. -/
theorem recordedWalk_tours_planted_tree_in_list :
    ∃ turns,
      IsTour ["a"] (.arr [.null, .obj [("a", .obj []), ("b", .obj [("c", .obj [])])]]) turns ∧
      turns.head? = some (.enter [.item 1]) ∧
      recordedWalk ["a"] (some ("b", .obj [("c", .obj [])]))
          (.arr [.null, .obj [("a", .obj [])]]) =
        some (.arr [.null, .obj [("a", .obj []), ("b", .obj [("c", .obj [])])]],
          turns.map (recordedAt ["a"] (some ("b", .obj [("c", .obj [])]))
            (.arr [.null, .obj [("a", .obj [])]]))) := by
  have hplanted : planted (some ("b", .obj [("c", .obj [])]))
      (.arr [.null, .obj [("a", .obj [])]]) =
      .arr [.null, .obj [("a", .obj []), ("b", .obj [("c", .obj [])])]] := rfl
  have htree : (Json.arr [.null, .obj [("a", .obj [])]]).WellFormed := by
    simp [WellFormed, WellFormedItems, WellFormedFields, Table.Ascending]
  have hplant : ∀ key value, some ("b", Json.obj [("c", .obj [])]) = some (key, value) →
      value.WellFormed := by
    rintro key value hsome
    obtain ⟨-, rfl⟩ := Prod.mk.inj (Option.some.inj hsome)
    simp [WellFormed, WellFormedFields, Table.Ascending]
  obtain ⟨turns, htour, hhead, hwalk, -, -⟩ :=
    recordedWalk_tours_planted_tree ["a"] htree hplant
  rw [hplanted] at htour hwalk
  exact ⟨turns, htour, hhead, hwalk⟩

end TenderSearch.Tree
