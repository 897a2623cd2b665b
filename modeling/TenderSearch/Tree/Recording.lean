import TenderSearch.Tree.Walk

/-!
# Recorded walks

A visitor that records the keys of every object when the walk enters and
leaves it, and that may plant one entry into the first object it enters.
-/

namespace TenderSearch.Tree

open Json

/-- Something that happened on a walk, with the keys of the object. -/
inductive Event where
  | enter (keys : List String)
  | leave (keys : List String)
deriving DecidableEq

/-- What has been recorded, and the entry that is still to be planted. -/
structure Recording where
  events : List Event
  plant : Option (String × Json)

/-- Records every object; the entry is planted after the first is recorded. -/
def recorder (refused : List String) : Visitor Recording where
  enter fields recording :=
    let events := recording.events ++ [.enter (fields.map Prod.fst)]
    match recording.plant with
    | some (key, value) => (Table.insert key value fields, ⟨events, none⟩)
    | none => (fields, ⟨events, none⟩)
  descends key := !refused.contains key
  leave fields recording :=
    (fields, { recording with events := recording.events ++ [.leave (fields.map Prod.fst)] })

/-- How deep the planted entry is. -/
def plantDepth : Option (String × Json) → Nat
  | some (_, value) => value.depth
  | none => 0

/-- Walks a tree and records the walk. -/
def recordedWalk (refused : List String) (plant : Option (String × Json)) (tree : Json) :
    Option (Json × List Event) :=
  (walk (recorder refused) (tree.depth + plantDepth plant + 1) tree ⟨[], plant⟩).map
    fun (tree, recording) => (tree, recording.events)

end TenderSearch.Tree
