import TenderSearch.Json.Basic

/-!
# Walks over value trees

A walk goes depth first through every object that is reached by object fields
and array items. A visitor may change an object before its fields are walked
and again afterwards, and may refuse to descend into fields. Because its
changes can make a tree deeper, a walk has an allowance of nesting and has no
result when that runs out.
-/

namespace TenderSearch.Tree

open Json

/-- What is done at every object of a walk. -/
structure Visitor (σ : Type) where
  enter : Fields → σ → Fields × σ
  descends : String → Bool
  leave : Fields → σ → Fields × σ

variable {σ : Type}

/-- Steps through the items of an array in order. -/
def walkItems (step : Json → σ → Option (Json × σ)) :
    List Json → σ → Option (List Json × σ)
  | [], s => some ([], s)
  | item :: rest, s => do
      let (item, s) ← step item s
      let (rest, s) ← walkItems step rest s
      return (item :: rest, s)

/-- Steps through the fields of an object in key order, leaving out those that
are refused. -/
def walkFields (step : Json → σ → Option (Json × σ)) (descends : String → Bool) :
    Fields → σ → Option (Fields × σ)
  | [], s => some ([], s)
  | (key, value) :: rest, s =>
      if descends key then do
        let (value, s) ← step value s
        let (rest, s) ← walkFields step descends rest s
        return ((key, value) :: rest, s)
      else do
        let (rest, s) ← walkFields step descends rest s
        return ((key, value) :: rest, s)

/-- Walks a tree with an allowance of nesting. Scalars are left alone. -/
def walk (visitor : Visitor σ) : Nat → Json → σ → Option (Json × σ)
  | allowance + 1, .arr items, s => do
      let (items, s) ← walkItems (walk visitor allowance) items s
      return (.arr items, s)
  | allowance + 1, .obj fields, s => do
      let (fields, s) := visitor.enter fields s
      let (fields, s) ← walkFields (walk visitor allowance) visitor.descends fields s
      let (fields, s) := visitor.leave fields s
      return (.obj fields, s)
  | 0, .arr _, _ => none
  | 0, .obj _, _ => none
  | _, value, s => some (value, s)

end TenderSearch.Tree
