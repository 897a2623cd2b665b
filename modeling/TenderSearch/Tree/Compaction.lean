import TenderSearch.Aggregation.Request

/-!
# Compacting answers

The answer to a wrapped aggregation holds layers that stand only for the
wrapping. Compacting splices them into the objects around them, from the
inside out. Lists of buckets are left as they are.
-/

namespace TenderSearch.Tree

open Json

/-- Whether one text occurs in another. -/
def occursIn (part : List Char) : List Char → Bool
  | [] => part.isEmpty
  | c :: rest => part.isPrefixOf (c :: rest) || occursIn part rest

/-- Whether a key names a layer: the suffix of wrapped layers occurs in it,
but not at its start. -/
def isSynthetic (key : String) : Bool :=
  let mark := Aggregation.nestedSuffix.toList
  occursIn mark key.toList && !mark.isPrefixOf key.toList

/-- The keys of the layers of an object. -/
def layerKeys (fields : Fields) : List String :=
  (fields.filter fun (key, value) => isSynthetic key && value.isObject).map Prod.fst

/-- Takes out the entries under keys, one after the other, and puts the fields
of those that are objects in their place. -/
def spliceKeys : List String → Fields → Fields
  | [], fields => fields
  | key :: rest, fields =>
      match Table.get? key fields with
      | some (.obj inner) => spliceKeys rest (Table.extend (Table.erase key fields) inner)
      | _ => spliceKeys rest (Table.erase key fields)

/-- Splices the layers of an object into it. -/
def splice (fields : Fields) : Fields :=
  spliceKeys (layerKeys fields) fields

mutual

/-- Splices the layers of every object outside bucket lists. -/
def compact : Json → Json
  | .arr items => .arr (compactItems items)
  | .obj fields => .obj (splice (compactFields fields))
  | value => value

def compactItems : List Json → List Json
  | [] => []
  | item :: rest => compact item :: compactItems rest

def compactFields : List (String × Json) → List (String × Json)
  | [] => []
  | (key, value) :: rest =>
      (key, if key = "buckets" then value else compact value) :: compactFields rest

end

end TenderSearch.Tree
