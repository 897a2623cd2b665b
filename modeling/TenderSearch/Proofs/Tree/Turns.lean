import TenderSearch.Proofs.Table.Ascending
import TenderSearch.Proofs.Tree.KeptLeaves
import TenderSearch.Proofs.Tree.Reach

/-!
# Turns of a walk

A walk takes two turns at every object it reaches: it enters the object and leaves
it. The turns at what is inside an object lie between its own two turns, and objects
of which neither is inside the other follow in the order of keys and indices.
-/

namespace TenderSearch.Tree

open Json

/-! ## Objects and the order of their paths -/

/-- Whether a step leads into a refused field. -/
def PathStep.isRefused (refused : List String) : PathStep → Bool
  | .key name => refused.contains name
  | .item _ => false

/-- The object at the end of a path that leads into no refused field. -/
def objectAt? (refused : List String) : List PathStep → Json → Option Fields
  | [], value => value.fields?
  | step :: rest, value =>
      if step.isRefused refused then none
      else (member? step value).bind (objectAt? refused rest)

/-- Two steps to members of one value, in the order of keys or of indices. -/
inductive PathStep.Before : PathStep → PathStep → Prop where
  | key {name other : String} (hlt : name < other) : Before (.key name) (.key other)
  | item {index other : Nat} (hlt : index < other) : Before (.item index) (.item other)

/-- Two paths part behind a common start, and the first one takes the earlier step. -/
def PartsBefore (path other : List PathStep) : Prop :=
  ∃ start step next rest later, step.Before next ∧
    path = start ++ step :: rest ∧ other = start ++ next :: later

/-- A path that leads on from the end of another one. -/
def Inside (outer path : List PathStep) : Prop :=
  ∃ step rest, path = outer ++ step :: rest

variable {refused : List String} {step : PathStep}

theorem PathStep.Before.irrefl : ¬ step.Before step := by
  intro hbefore
  cases hbefore with
  | key hlt => exact Std.lt_irrefl hlt
  | item hlt => exact Nat.lt_irrefl _ hlt

theorem PartsBefore.irrefl {path : List PathStep} : ¬ PartsBefore path path := by
  rintro ⟨start, step, next, rest, later, hbefore, rfl, heq⟩
  obtain ⟨rfl, -⟩ := List.cons.inj (List.append_cancel_left heq)
  exact PathStep.Before.irrefl hbefore

theorem PartsBefore.cons {path other : List PathStep} (hparts : PartsBefore path other)
    (step : PathStep) : PartsBefore (step :: path) (step :: other) := by
  obtain ⟨start, first, next, rest, later, hbefore, rfl, rfl⟩ := hparts
  exact ⟨step :: start, first, next, rest, later, hbefore, rfl, rfl⟩

theorem Inside.cons {outer path : List PathStep} (hinside : Inside outer path)
    (step : PathStep) : Inside (step :: outer) (step :: path) := by
  obtain ⟨next, rest, rfl⟩ := hinside
  exact ⟨next, rest, rfl⟩

/-! ## Turns -/

/-- A turn of a walk, at the object at the end of a path. -/
inductive Turn where
  | enter (path : List PathStep)
  | leave (path : List PathStep)
deriving DecidableEq

namespace Turn

def path : Turn → List PathStep
  | .enter path => path
  | .leave path => path

/-- The same turn seen from further above. -/
def under (step : PathStep) : Turn → Turn
  | .enter path => .enter (step :: path)
  | .leave path => .leave (step :: path)

@[simp] theorem path_under (step : PathStep) (turn : Turn) :
    (turn.under step).path = step :: turn.path := by
  cases turn <;> rfl

theorem exists_under {turn : Turn} {rest : List PathStep} (hpath : turn.path = step :: rest) :
    ∃ inner : Turn, inner.path = rest ∧ inner.under step = turn := by
  cases turn with
  | enter path => exact ⟨.enter rest, rfl, congrArg _ hpath.symm⟩
  | leave path => exact ⟨.leave rest, rfl, congrArg _ hpath.symm⟩

/-- An object is entered before all that is inside it and left after all of that. Where
neither of two objects is inside the other, the order of their paths decides. -/
inductive Precedes : Turn → Turn → Prop where
  | itself (path : List PathStep) : Precedes (.enter path) (.leave path)
  | entered {path : List PathStep} {turn : Turn} (hinside : Inside path turn.path) :
      Precedes (.enter path) turn
  | left {turn : Turn} {path : List PathStep} (hinside : Inside path turn.path) :
      Precedes turn (.leave path)
  | apart {turn next : Turn} (hparts : PartsBefore turn.path next.path) : Precedes turn next

theorem Precedes.ne {turn next : Turn} (hprecedes : turn.Precedes next) : turn ≠ next := by
  rintro rfl
  cases hprecedes with
  | entered hinside =>
      obtain ⟨step, rest, heq⟩ := hinside
      exact absurd (List.append_right_eq_self.mp heq.symm) (List.cons_ne_nil _ _)
  | left hinside =>
      obtain ⟨step, rest, heq⟩ := hinside
      exact absurd (List.append_right_eq_self.mp heq.symm) (List.cons_ne_nil _ _)
  | apart hparts => exact hparts.irrefl

theorem Precedes.under {turn next : Turn} (hprecedes : turn.Precedes next) (step : PathStep) :
    (turn.under step).Precedes (next.under step) := by
  cases hprecedes with
  | itself path => exact .itself _
  | entered hinside => exact .entered (path_under step next ▸ hinside.cons step)
  | left hinside => exact .left (path_under step turn ▸ hinside.cons step)
  | apart hparts =>
      exact .apart (path_under step turn ▸ path_under step next ▸ hparts.cons step)

end Turn

/-- Sequences of turns that are well bracketed: every object that is entered is left
again, and between the two there are only turns inside it. -/
inductive Bracketed : List Turn → Prop where
  | nothing : Bracketed []
  | object (path : List PathStep) {inner rest : List Turn}
      (hinside : ∀ turn ∈ inner, Inside path turn.path) (hinner : Bracketed inner)
      (hrest : Bracketed rest) : Bracketed (.enter path :: inner ++ .leave path :: rest)

namespace Bracketed

theorem append {turns later : List Turn} (hturns : Bracketed turns) (hlater : Bracketed later) :
    Bracketed (turns ++ later) := by
  induction hturns with
  | nothing => exact hlater
  | object path hinside hinner hrest _ ih =>
      rw [List.append_assoc, List.cons_append]
      exact .object path hinside hinner ih

theorem under {turns : List Turn} (hturns : Bracketed turns) (step : PathStep) :
    Bracketed (turns.map (Turn.under step)) := by
  induction hturns with
  | nothing => exact .nothing
  | object path hinside _ _ ihinner ihrest =>
      rw [List.map_append, List.map_cons, List.map_cons]
      refine .object (step :: path) ?_ ihinner ihrest
      intro turn hturn
      obtain ⟨inner, hmem, rfl⟩ := List.mem_map.mp hturn
      rw [Turn.path_under]
      exact (hinside inner hmem).cons step

theorem flatMap {α : Type} {members : List α} {turns : α → List Turn}
    (hturns : ∀ member ∈ members, Bracketed (turns member)) :
    Bracketed (members.flatMap turns) := by
  induction members with
  | nil => exact .nothing
  | cons member rest ih =>
      obtain ⟨hmember, hrest⟩ := List.forall_mem_cons.mp hturns
      exact hmember.append (ih hrest)

end Bracketed

/-! ## The turns of a tree -/

mutual

/-- The turns of a walk in their order. -/
def turns (refused : List String) : Json → List Turn
  | .null => []
  | .bool _ => []
  | .num _ => []
  | .str _ => []
  | .arr items => turnsInItems refused 0 items
  | .obj fields => .enter [] :: turnsInFields refused fields ++ [.leave []]

def turnsInItems (refused : List String) (index : Nat) : List Json → List Turn
  | [] => []
  | item :: rest =>
      (turns refused item).map (Turn.under (.item index)) ++ turnsInItems refused (index + 1) rest

def turnsInFields (refused : List String) : List (String × Json) → List Turn
  | [] => []
  | (key, value) :: rest =>
      if refused.contains key then turnsInFields refused rest
      else (turns refused value).map (Turn.under (.key key)) ++ turnsInFields refused rest

end

/-- The members of a value that are walked, with the steps that lead to them. -/
def branches (refused : List String) : Json → List (PathStep × Json)
  | .arr items => items.mapIdx fun index item => (.item index, item)
  | .obj fields =>
      (fields.filter fun entry => !refused.contains entry.1).map fun entry =>
        (.key entry.1, entry.2)
  | _ => []

/-- The turns behind a step. -/
def turnsBehind (refused : List String) (branch : PathStep × Json) : List Turn :=
  (turns refused branch.2).map (Turn.under branch.1)

theorem turns_arr (items : List Json) :
    turns refused (.arr items) =
      (branches refused (.arr items)).flatMap (turnsBehind refused) := by
  have hitems : ∀ index, turnsInItems refused index items =
      (items.mapIdx fun place item => (PathStep.item (index + place), item)).flatMap
        (turnsBehind refused) := by
    induction items with
    | nil => intro index; rfl
    | cons item rest ih =>
        intro index
        rw [turnsInItems, ih, List.mapIdx_cons, List.flatMap_cons]
        simp only [turnsBehind, Nat.add_zero, Nat.add_assoc, Nat.add_comm 1]
  rw [turns, hitems]
  simp only [Nat.zero_add, branches]

theorem turns_obj (fields : Fields) :
    turns refused (.obj fields) =
      .enter [] :: (branches refused (.obj fields)).flatMap (turnsBehind refused) ++
        [.leave []] := by
  have hfields : turnsInFields refused fields =
      (branches refused (.obj fields)).flatMap (turnsBehind refused) := by
    induction fields with
    | nil => rfl
    | cons entry rest ih =>
        obtain ⟨key, value⟩ := entry
        rw [turnsInFields, ih]
        by_cases hrefused : key ∈ refused <;> simp [branches, hrefused, turnsBehind]
  rw [turns, hfields]

/-- Only an object has turns of its own. -/
theorem turns_of_isObject_eq_false {tree : Json} (htree : tree.isObject = false) :
    turns refused tree = (branches refused tree).flatMap (turnsBehind refused) := by
  cases tree with
  | arr items => exact turns_arr items
  | obj fields => cases htree
  | _ => rfl

/-! ## Branches -/

theorem mem_branches {tree member : Json} (htree : tree.WellFormed) :
    (step, member) ∈ branches refused tree ↔
      step.isRefused refused = false ∧ member? step tree = some member := by
  cases tree with
  | arr items =>
      cases step with
      | key name => simp [branches, List.mem_mapIdx, member?, get?]
      | item index =>
          simp [branches, List.mem_mapIdx, member?, list?, PathStep.isRefused,
            List.getElem?_eq_some_iff]
  | obj fields =>
      cases step with
      | key name =>
          have hmem : (name, member) ∈ fields ↔ Table.get? name fields = some member :=
            ⟨htree.1.get?_of_mem, Table.mem_of_get?⟩
          simp [branches, member?, get?, PathStep.isRefused, ← hmem, and_comm]
      | item index => simp [branches, member?, list?]
  | _ => cases step <;> simp [branches, member?, get?, list?]

theorem pairwise_branches {tree : Json} (htree : tree.WellFormed) :
    (branches refused tree).Pairwise fun first second => first.1.Before second.1 := by
  cases tree with
  | arr items =>
      apply List.pairwise_iff_getElem.mpr
      intro i j hi hj hlt
      simp only [branches, List.getElem_mapIdx]
      exact .item hlt
  | obj fields =>
      apply List.pairwise_map.mpr
      apply (htree.1.filter _).imp
      intro first second hlt
      exact .key hlt
  | _ => exact .nil

/-- Induction over well-formed trees along the branches of a walk. -/
@[elab_as_elim]
theorem branchInduction (refused : List String) {motive : Json → Prop}
    (hbranches : ∀ tree, tree.WellFormed →
      (∀ step member, (step, member) ∈ branches refused tree → motive member) → motive tree)
    {tree : Json} (htree : tree.WellFormed) : motive tree := by
  induction tree using Json.memberInduction with
  | arr items ih =>
      apply hbranches _ htree
      intro step member hmem
      obtain ⟨index, hindex, heq⟩ := List.mem_mapIdx.mp hmem
      obtain ⟨-, rfl⟩ := Prod.mk.inj heq
      have hitem := List.getElem_mem hindex
      exact ih _ hitem ((wellFormed_arr_iff items).mp htree _ hitem)
  | obj fields ih =>
      apply hbranches _ htree
      intro step member hmem
      obtain ⟨entry, hentry, heq⟩ := List.mem_map.mp hmem
      obtain ⟨-, rfl⟩ := Prod.mk.inj heq
      have hfield := List.mem_of_mem_filter hentry
      exact ih _ hfield (((wellFormed_obj_iff fields).mp htree).2 _ hfield)
  | _ =>
      apply hbranches _ htree
      intro step member hmem
      exact nomatch hmem

/-! ## Tours -/

/-- The turns of a walk around a tree. -/
structure IsTour (refused : List String) (tree : Json) (turns : List Turn) : Prop where
  /-- The objects that are reached without crossing a refused key, and no others -/
  reached : ∀ turn, turn ∈ turns ↔ (objectAt? refused turn.path tree).isSome
  /-- No turn is taken twice -/
  once : turns.Nodup
  bracketed : Bracketed turns
  ordered : turns.Pairwise Turn.Precedes

theorem mem_turnsBehind {branch : PathStep × Json} {turn : Turn} :
    turn ∈ turnsBehind refused branch ↔
      ∃ inner ∈ turns refused branch.2, inner.under branch.1 = turn :=
  List.mem_map

/-- Behind the branches there are the turns at the objects inside. -/
theorem mem_flatMap_turnsBehind {tree : Json} (htree : tree.WellFormed)
    (hmembers : ∀ step member, (step, member) ∈ branches refused tree →
      ∀ turn, turn ∈ turns refused member ↔ (objectAt? refused turn.path member).isSome)
    (turn : Turn) :
    turn ∈ (branches refused tree).flatMap (turnsBehind refused) ↔
      turn.path ≠ [] ∧ (objectAt? refused turn.path tree).isSome := by
  rw [List.mem_flatMap]
  constructor
  · rintro ⟨⟨step, member⟩, hbranch, hturn⟩
    obtain ⟨inner, hinner, rfl⟩ := mem_turnsBehind.mp hturn
    obtain ⟨hrefused, hmember⟩ := (mem_branches htree).mp hbranch
    rw [Turn.path_under, objectAt?, hrefused, hmember]
    exact ⟨List.cons_ne_nil _ _, (hmembers step member hbranch inner).mp hinner⟩
  · rintro ⟨hpath, hobject⟩
    obtain ⟨step, rest, hcons⟩ := List.exists_cons_of_ne_nil hpath
    obtain ⟨inner, rfl, rfl⟩ := Turn.exists_under hcons
    rw [Turn.path_under, objectAt?] at hobject
    split at hobject
    next => cases hobject
    next hrefused =>
      cases hmember : member? step tree with
      | none => rw [hmember] at hobject; cases hobject
      | some member =>
          rw [hmember] at hobject
          have hbranch := (mem_branches htree).mpr ⟨Bool.eq_false_iff.mpr hrefused, hmember⟩
          exact ⟨_, hbranch, mem_turnsBehind.mpr
            ⟨inner, (hmembers step member hbranch inner).mpr hobject, rfl⟩⟩

theorem mem_turns {tree : Json} (htree : tree.WellFormed) (turn : Turn) :
    turn ∈ turns refused tree ↔ (objectAt? refused turn.path tree).isSome := by
  revert turn
  refine branchInduction refused ?_ htree
  intro tree htree ih turn
  have hinside := mem_flatMap_turnsBehind htree ih turn
  cases tree with
  | obj fields =>
      rw [turns_obj, List.mem_append, List.mem_cons, List.mem_singleton, hinside]
      cases turn with
      | enter path => cases path <;> simp [Turn.path, objectAt?, fields?]
      | leave path => cases path <;> simp [Turn.path, objectAt?, fields?]
  | _ =>
      rw [turns_of_isObject_eq_false rfl, hinside]
      cases hpath : turn.path <;> simp [objectAt?, fields?]

theorem inside_of_mem_flatMap_turnsBehind {branches : List (PathStep × Json)} {turn : Turn}
    (hturn : turn ∈ branches.flatMap (turnsBehind refused)) : Inside [] turn.path := by
  obtain ⟨branch, -, hmem⟩ := List.mem_flatMap.mp hturn
  obtain ⟨inner, -, rfl⟩ := mem_turnsBehind.mp hmem
  exact ⟨branch.1, inner.path, Turn.path_under _ _⟩

theorem bracketed_turns {tree : Json} (htree : tree.WellFormed) :
    Bracketed (turns refused tree) := by
  refine branchInduction refused ?_ htree
  intro tree _ ih
  have hbranches : Bracketed ((branches refused tree).flatMap (turnsBehind refused)) :=
    Bracketed.flatMap fun branch hbranch => (ih branch.1 branch.2 hbranch).under branch.1
  cases tree with
  | obj fields =>
      rw [turns_obj]
      exact .object [] (fun turn hturn => inside_of_mem_flatMap_turnsBehind hturn) hbranches
        .nothing
  | _ => rwa [turns_of_isObject_eq_false rfl]

theorem pairwise_turns {tree : Json} (htree : tree.WellFormed) :
    (turns refused tree).Pairwise Turn.Precedes := by
  refine branchInduction refused ?_ htree
  intro tree htree ih
  have hbranches : ((branches refused tree).flatMap (turnsBehind refused)).Pairwise
      Turn.Precedes := by
    apply List.pairwise_flatMap.mpr
    constructor
    · intro branch hbranch
      apply List.pairwise_map.mpr
      apply (ih branch.1 branch.2 hbranch).imp
      intro turn next hprecedes
      exact hprecedes.under branch.1
    · -- turns in two members follow the order of the steps to these
      apply (pairwise_branches htree).imp
      intro first second hbefore turn hturn next hnext
      obtain ⟨turn, -, rfl⟩ := mem_turnsBehind.mp hturn
      obtain ⟨next, -, rfl⟩ := mem_turnsBehind.mp hnext
      exact .apart ⟨[], first.1, second.1, turn.path, next.path, hbefore,
        Turn.path_under _ _, Turn.path_under _ _⟩
  cases tree with
  | obj fields =>
      rw [turns_obj, List.cons_append, List.pairwise_cons, List.pairwise_append]
      refine ⟨?_, hbranches, List.pairwise_singleton _ _, ?_⟩
      · intro turn hturn
        rcases List.mem_append.mp hturn with hinner | hlast
        · exact .entered (inside_of_mem_flatMap_turnsBehind hinner)
        · rw [List.mem_singleton.mp hlast]
          exact .itself []
      · intro turn hturn last hlast
        rw [List.mem_singleton.mp hlast]
        exact .left (inside_of_mem_flatMap_turnsBehind hturn)
  | _ => rwa [turns_of_isObject_eq_false rfl]

theorem isTour_turns (refused : List String) {tree : Json} (htree : tree.WellFormed) :
    IsTour refused tree (turns refused tree) where
  reached := mem_turns htree
  once := (pairwise_turns htree).imp fun hprecedes => hprecedes.ne
  bracketed := bracketed_turns htree
  ordered := pairwise_turns htree

end TenderSearch.Tree
