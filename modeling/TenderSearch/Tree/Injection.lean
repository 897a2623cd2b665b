import TenderSearch.Tree.Walk

/-!
# Injecting filters below nested scopes

An aggregation that is nested at a scope gets one new layer below it: its
children move under a filter that carries the injected query. Aggregations are
the entries of every object under a field `aggregations`. The walk goes on
into the layers it has made and into the injected query itself, so injecting a
query that holds an aggregation nested at the same scope never ends.
-/

namespace TenderSearch.Tree

open Json

/-- Whether an aggregation is nested at a scope. -/
def nestedAt (scope : String) (aggregation : Fields) : Bool :=
  ((Json.obj aggregation).at? ["nested", "path"]).bind string? == some scope

/-- The filter layer with the children that move below it, if there are any. -/
def filterLayer (filter : Json) : Option Json → Json
  | some children => .obj [("aggregations", children), ("filter", filter)]
  | none => .obj [("filter", filter)]

/-- An aggregation with its children below a filter layer. -/
def wrap (filter : Json) (key : String) (aggregation : Fields) : Fields :=
  Table.insert "aggregations"
    (.obj [(key ++ "_filter", filterLayer filter (Table.get? "aggregations" aggregation))])
    aggregation

/-- Wraps every aggregation of a map that is nested at the scope, and adds
their count. -/
def wrapAll (scope : String) (filter : Json) : Fields → Nat → Fields × Nat
  | [], count => ([], count)
  | (key, .obj aggregation) :: rest, count =>
      if nestedAt scope aggregation then
        let (rest, count) := wrapAll scope filter rest (count + 1)
        ((key, .obj (wrap filter key aggregation)) :: rest, count)
      else
        let (rest, count) := wrapAll scope filter rest count
        ((key, .obj aggregation) :: rest, count)
  | entry :: rest, count =>
      let (rest, count) := wrapAll scope filter rest count
      (entry :: rest, count)

/-- Wraps in the map of aggregations that an object holds. -/
def wrapInside (scope : String) (filter : Json) (fields : Fields) (count : Nat) :
    Fields × Nat :=
  match Table.get? "aggregations" fields with
  | some (.obj aggregations) =>
      let (aggregations, count) := wrapAll scope filter aggregations count
      (Table.modify "aggregations" (fun _ => .obj aggregations) fields, count)
  | _ => (fields, count)

/-- Wraps on the way down and counts what it wraps. -/
def injector (scope : String) (filter : Json) : Visitor Nat where
  enter := wrapInside scope filter
  descends _ := true
  leave fields count := (fields, count)

/-- Enough nesting for every injection that ends: each level of the tree can
gain two layers, and the injected query can hang below the deepest. -/
def injectionAllowance (filter tree : Json) : Nat :=
  3 * tree.depth + filter.depth + 4

/-- Injects a filter below every aggregation of a tree that is nested at a
scope, and counts them. -/
def inject (scope : String) (filter tree : Json) : Option (Json × Nat) :=
  walk (injector scope filter) (injectionAllowance filter tree) tree 0

/-- Injects a filter into a bare map of aggregations. -/
def injectIntoMap (scope : String) (filter : Json) (map : Fields) : Option (Fields × Nat) :=
  let allowance := injectionAllowance filter (.obj map)
  let (wrapped, count) := wrapAll scope filter map 0
  walkFields (walk (injector scope filter) allowance) (fun _ => true) wrapped count

end TenderSearch.Tree
