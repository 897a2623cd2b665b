import TenderSearch.Proofs.Aggregation.Shape
import TenderSearch.Proofs.Tree.Quiet

/-!
# Filter layers in requests

What a request should look like after injections. The fragments of a request
are the entries of its map and, inside of terms fragments, the entries of the
map there; nothing else counts as a fragment, whatever the fields are called.
A fragment that is nested at a scope has one layer between itself and its
children for every filter that was injected at the scope.
-/

namespace TenderSearch.Tree

open Json Aggregation

/-- A filter and the scope that it is injected at. -/
structure Injection where
  scope : String
  filter : Json

/-- The filters that are injected at a scope, in their order. -/
def filtersAt (scope : String) (injections : List Injection) : List Json :=
  (injections.filter fun injection => injection.scope = scope).map Injection.filter

/-- A layer with a filter around the children of the fragment under a key. -/
def layerOver (key : String) (children filter : Json) : Json :=
  .obj [(key ++ "_filter", .obj [("aggregations", children), ("filter", filter)])]

/-- The children of a fragment below one layer for each filter. The last filter
is outermost. -/
def layersOver (key : String) (children : Json) (filters : List Json) : Json :=
  filters.foldl (layerOver key) children

/-- The scope that a fragment is nested at. -/
def scopeOf? (fragment : Json) : Option String :=
  (fragment.at? ["nested", "path"]).bind string?

mutual

/-- The fragment under a key after injections. -/
def layFragment (injections : List Injection) (key : String) : Json → Json
  | .obj fields => .obj (layFields injections key (scopeOf? (.obj fields)) fields)
  | value => value

/-- The fields of a fragment. Only its map of aggregations changes: a nested
fragment gets its layers, and in any other the fragments inside get theirs. -/
def layFields (injections : List Injection) (key : String) (scope? : Option String) :
    List (String × Json) → List (String × Json)
  | [] => []
  | (name, .obj inner) :: rest =>
      let value :=
        if name = "aggregations" then
          match scope? with
          | some scope => layersOver key (.obj inner) (filtersAt scope injections)
          | none => .obj (layMap injections inner)
        else .obj inner
      (name, value) :: layFields injections key scope? rest
  | entry :: rest => entry :: layFields injections key scope? rest

def layMap (injections : List Injection) : List (String × Json) → List (String × Json)
  | [] => []
  | (key, fragment) :: rest =>
      (key, layFragment injections key fragment) :: layMap injections rest

end

mutual

/-- How many of a fragment and the fragments inside are nested at a scope. -/
def countFragment (scope : String) : Json → Nat
  | .obj fields =>
      (if scopeOf? (.obj fields) = some scope then 1 else 0) + countFields scope fields
  | _ => 0

/-- How many fragments inside of a fragment with the given fields are nested at
a scope. -/
def countFields (scope : String) : List (String × Json) → Nat
  | [] => 0
  | (name, .obj inner) :: rest =>
      (if name = "aggregations" then countMap scope inner else 0) + countFields scope rest
  | _ :: rest => countFields scope rest

/-- How many fragments of a map are nested at a scope, at any depth. -/
def countMap (scope : String) : List (String × Json) → Nat
  | [] => 0
  | (_, fragment) :: rest => countFragment scope fragment + countMap scope rest

end

/-- How many fragments inside of a fragment are nested at a scope. -/
def countInside (scope : String) : Json → Nat
  | .obj fields => countFields scope fields
  | _ => 0

def injectAll : List Injection → Fields → Option (Fields × List Nat)
  | [], map => some (map, [])
  | injection :: rest, map => do
      let (map, count) ← injectIntoMap injection.scope injection.filter map
      let (map, counts) ← injectAll rest map
      return (map, count :: counts)

/-! ## Shapes of fragments -/

theorem layMap_eq_map (injections : List Injection) (map : Fields) :
    layMap injections map =
      map.map fun entry => (entry.1, layFragment injections entry.1 entry.2) := by
  induction map with
  | nil => rfl
  | cons entry rest ih => rw [layMap, ih, List.map_cons]

/-- A fragment counts by itself and by what is inside. -/
theorem countFragment_eq (scope : String) (fragment : Json) :
    countFragment scope fragment =
      (isNestedAt scope fragment).toNat + countInside scope fragment := by
  cases fragment with
  | obj fields =>
      rw [countFragment, isNestedAt, nestedAt, countInside, scopeOf?]
      by_cases hscope : ((Json.obj fields).at? ["nested", "path"]).bind string? = some scope <;>
        simp [hscope]
  | _ => rfl

/-- A map counts its own entries and what is inside of them. -/
theorem countMap_eq (scope : String) (map : Fields) :
    countMap scope map = map.countP (fun entry => isNestedAt scope entry.2) +
      (map.map fun entry => countInside scope entry.2).sum := by
  induction map with
  | nil => rfl
  | cons entry rest ih =>
      rw [countMap, countFragment_eq, ih, List.countP_cons, List.map_cons, List.sum_cons]
      cases isNestedAt scope entry.2 <;> simp <;> omega

variable (injections : List Injection) (key field scope : String) (size : Nat)

theorem layFragment_of_isLeaf {fragment : Json} (hleaf : IsLeaf fragment) :
    layFragment injections key fragment = fragment := by
  cases hleaf <;> rfl

theorem layFragment_terms (inner : Fields) :
    layFragment injections key (termsFragment field size (some inner)) =
      termsFragment field size (some (layMap injections inner)) := rfl

theorem layFragment_wrapped :
    layFragment injections key (wrapped scope field size) = .obj [
      ("aggregations", layersOver key
        (.obj [(keyOf field ++ nestedSuffix, .obj [("terms", termsBody field size)])])
        (filtersAt scope injections)),
      ("nested", .obj [("path", .str scope)])] := rfl

end TenderSearch.Tree
