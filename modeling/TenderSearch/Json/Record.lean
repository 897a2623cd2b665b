import TenderSearch.Json.Document

/-!
# Records

A record is written as an object with its fields by name, or as an array with
its fields in their declared order. In an object undeclared fields are
ignored; an array may end early but not go on after the last field.

When a text is read as a record directly, the values of undeclared fields are
not even read: they are bound neither in nesting nor in the range of their
numbers. A declared field may stand there only once.
-/

namespace TenderSearch.Json

/-- The fields of a record with declared names. -/
def recordFields? (names : List String) : Json → Option Fields
  | .obj fields => some fields
  | .arr items => if items.length ≤ names.length then some (names.zip items) else none
  | _ => none

/-- A field that has to be there. -/
def required? {α : Type} (name : String) (decode : Json → Option α) (fields : Fields) :
    Option α :=
  (Table.get? name fields).bind decode

/-- A field with a default, which does not stand for null. -/
def defaulted? {α : Type} (name : String) (default : α) (decode : Json → Option α)
    (fields : Fields) : Option α :=
  match Table.get? name fields with
  | none => some default
  | some value => decode value

/-- A field that may be missing or null. -/
def optional? {α : Type} (name : String) (decode : Json → Option α) (fields : Fields) :
    Option (Option α) :=
  match Table.get? name fields with
  | none => some none
  | some .null => some none
  | some value => (decode value).map some

/-- A field of an encoded record, unless it is left out. -/
def fieldUnless (omitted : Bool) (name : String) (value : Json) : Fields :=
  if omitted then [] else [(name, value)]

/-- What a place in a document is read as, where `ρ` names the records. -/
inductive Layout (ρ : Type) where
  /-- Any value. -/
  | value
  /-- One of several names, also as an object with that only key and null. -/
  | choice
  | record (kind : ρ)
  | records (kind : ρ)

namespace Document

variable {ρ : Type} (declared : ρ → List (String × Layout ρ))

mutual

/-- The value of a document that is read in a layout. -/
def readAs? (limit : Nat) (layout : Layout ρ) : Document → Option Json
  | .list items =>
      match layout, limit with
      | .record kind, below + 1 => (readPlaces? below (declared kind) items).map .arr
      | .records kind, below + 1 => (readEach? below kind items).map .arr
      | _, limit => toJson? limit (.list items)
  | .record fields =>
      match layout, limit with
      | .record kind, below + 1 =>
          (readDeclared? below (declared kind) [] fields).map ofFields
      | .choice, _ + 1 =>
          match fields with
          | [(some name, .null)] => some (.obj [(name, .null)])
          | _ => none
      | _, limit => toJson? limit (.record fields)
  | scalar => toJson? limit scalar

/-- Every item as a record of one kind. -/
def readEach? (limit : Nat) (kind : ρ) : List Document → Option (List Json)
  | [] => some []
  | item :: rest => do
      let item ← readAs? limit (.record kind) item
      return item :: (← readEach? limit kind rest)

/-- Items as the fields of a record, by their places. -/
def readPlaces? (limit : Nat) :
    List (String × Layout ρ) → List Document → Option (List Json)
  | _, [] => some []
  | [], _ :: _ => none
  | (_, layout) :: places, item :: rest => do
      let item ← readAs? limit layout item
      return item :: (← readPlaces? limit places rest)

/-- The declared fields, none of which may be among those seen. -/
def readDeclared? (limit : Nat) (places : List (String × Layout ρ)) (seen : List String) :
    List (Option String × Document) → Option (List (String × Json))
  | [] => some []
  | (none, _) :: _ => none
  | (some key, value) :: rest =>
      match Table.get? key places with
      | none => readDeclared? limit places seen rest
      | some layout =>
          if key ∈ seen then none
          else do
            let value ← readAs? limit layout value
            return (key, value) :: (← readDeclared? limit places (key :: seen) rest)

end

end Document

/-- The value of a text that is read as a record. -/
def parseRecord? {ρ : Type} (declared : ρ → List (String × Layout ρ)) (kind : ρ)
    (text : String) : Option Json := do
  (← Document.parse? text).readAs? declared Document.nestingLimit (.record kind)

end TenderSearch.Json
