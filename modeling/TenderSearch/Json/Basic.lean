import TenderSearch.Binary64.Basic
import TenderSearch.Table

/-!
# JSON values

A number is an integer or a floating-point number, and the two never compare
equal. The fields of an object are a table in ascending key order; strings
compare by code point, which is also the byte order of their UTF-8 form.
-/

namespace TenderSearch

inductive Json.Number where
  | int (n : Int)
  | float (x : Binary64)
deriving DecidableEq

inductive Json where
  | null
  | bool (b : Bool)
  | num (n : Json.Number)
  | str (s : String)
  | arr (items : List Json)
  | obj (fields : List (String × Json))

namespace Json

abbrev Fields := List (String × Json)

instance : Inhabited Json := ⟨.null⟩

def ofInt (n : Int) : Json :=
  .num (.int n)

def ofNat (n : Nat) : Json :=
  ofInt n

def ofStrings (items : List String) : Json :=
  .arr (items.map .str)

/-- A string, or null where there is none. -/
def ofString? : Option String → Json
  | some s => .str s
  | none => .null

/-- An object of fields in any order, of which the last under a key wins. -/
def ofFields (fields : List (String × Json)) : Json :=
  .obj (Table.ofList fields)

/-- The value of a field; only objects have fields. -/
def get? (key : String) : Json → Option Json
  | .obj fields => Table.get? key fields
  | _ => none

/-- The value at the end of a path of fields. -/
def at? : List String → Json → Option Json
  | [], value => some value
  | key :: rest, value => (value.get? key).bind (at? rest)

theorem at?_append (first second : List String) (value : Json) :
    at? (first ++ second) value = (at? first value).bind (at? second) := by
  induction first generalizing value with
  | nil => rfl
  | cons key rest ih =>
      rw [List.cons_append, at?, at?]
      cases value.get? key with
      | none => rfl
      | some next => exact ih next

def isObject : Json → Bool
  | .obj _ => true
  | _ => false

def string? : Json → Option String
  | .str s => some s
  | _ => none

def bool? : Json → Option Bool
  | .bool b => some b
  | _ => none

def list? : Json → Option (List Json)
  | .arr items => some items
  | _ => none

def fields? : Json → Option Fields
  | .obj fields => some fields
  | _ => none

/-- A whole number within bounds; numbers with a fraction or an exponent do
not count. -/
def intIn? (low high : Int) : Json → Option Int
  | .num (.int n) => if low ≤ n ∧ n < high then some n else none
  | _ => none

def natOfBits? (bits : Nat) (value : Json) : Option Nat :=
  (value.intIn? 0 (Nat.pow 2 bits)).map Int.toNat

def intOfBits? (bits : Nat) (value : Json) : Option Int :=
  value.intIn? (-(Nat.pow 2 (bits - 1) : Int)) (Nat.pow 2 (bits - 1))

def Number.toBinary64? : Number → Option Binary64
  | .int n => Binary64.ofInt? n
  | .float x => some x

/-- Every element of a list of strings. -/
def strings? (value : Json) : Option (List String) :=
  value.list?.bind fun items => items.mapM string?

/-- The fields of an object of strings. -/
def texts? (value : Json) : Option (List (String × String)) := do
  (← value.fields?).mapM fun (key, text) => return (key, ← text.string?)

mutual

/-- How many objects and arrays enclose each other at most. -/
def depth : Json → Nat
  | .null => 0
  | .bool _ => 0
  | .num _ => 0
  | .str _ => 0
  | .arr items => depthItems items + 1
  | .obj fields => depthFields fields + 1

def depthItems : List Json → Nat
  | [] => 0
  | item :: rest => max (depth item) (depthItems rest)

def depthFields : List (String × Json) → Nat
  | [] => 0
  | (_, value) :: rest => max (depth value) (depthFields rest)

end

mutual

/-- The keys of every object ascend strictly. -/
def WellFormed : Json → Prop
  | .null => True
  | .bool _ => True
  | .num _ => True
  | .str _ => True
  | .arr items => WellFormedItems items
  | .obj fields => Table.Ascending fields ∧ WellFormedFields fields

def WellFormedItems : List Json → Prop
  | [] => True
  | item :: rest => WellFormed item ∧ WellFormedItems rest

def WellFormedFields : List (String × Json) → Prop
  | [] => True
  | (_, value) :: rest => WellFormed value ∧ WellFormedFields rest

end

end Json

end TenderSearch
