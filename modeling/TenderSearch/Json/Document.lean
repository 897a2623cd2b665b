import TenderSearch.Json.Token

/-!
# Documents: JSON text as written

A document is a value as its text spells it: fields stand in their order and
may repeat, and numbers and strings without a value are kept. Reading a
document as a value resolves all of this and bounds the nesting.
-/

namespace TenderSearch.Json

/-- A JSON value as it is written. -/
inductive Document where
  | null
  | bool (b : Bool)
  | num (value : Option Number)
  | str (value : Option String)
  | list (items : List Document)
  | record (fields : List (Option String × Document))

namespace Document

/-- An array or object that is still open, with its last part first. -/
inductive Frame where
  | list (items : List Document)
  | record (fields : List (Option String × Document)) (key : Option String)

/-- What may come next. -/
inductive Stage where
  | value
  /-- The first item of an array, or its end. -/
  | firstItem
  /-- The first key of an object, or its end. -/
  | firstKey
  /-- A key of an object with these fields so far. -/
  | key (fields : List (Option String × Document))
  /-- The colon after a key. -/
  | colon (fields : List (Option String × Document)) (key : Option String)
  /-- A comma or the end of the innermost frame, which this value completes. -/
  | after (value : Document)

/-- How far the tokens of a document have been read. -/
structure Reading where
  frames : List Frame
  stage : Stage

namespace Reading

def start : Reading :=
  ⟨[], .value⟩

/-- Reads the token that a value starts with. -/
def openValue? (frames : List Frame) : Token → Option Reading
  | .null => some ⟨frames, .after .null⟩
  | .bool b => some ⟨frames, .after (.bool b)⟩
  | .num n => some ⟨frames, .after (.num n)⟩
  | .str s => some ⟨frames, .after (.str s)⟩
  | .openArray => some ⟨frames, .firstItem⟩
  | .openObject => some ⟨frames, .firstKey⟩
  | _ => none

/-- Reads the token after a value. -/
def closeValue? (frames : List Frame) (value : Document) (token : Token) : Option Reading :=
  match frames, token with
  | .list items :: rest, .comma => some ⟨.list (value :: items) :: rest, .value⟩
  | .list items :: rest, .closeArray => some ⟨rest, .after (.list (value :: items).reverse)⟩
  | .record fields key :: rest, .comma => some ⟨rest, .key ((key, value) :: fields)⟩
  | .record fields key :: rest, .closeObject =>
      some ⟨rest, .after (.record ((key, value) :: fields).reverse)⟩
  | _, _ => none

def step? (reading : Reading) (token : Token) : Option Reading :=
  let frames := reading.frames
  match reading.stage, token with
  | .value, token => openValue? frames token
  | .firstItem, .closeArray => some ⟨frames, .after (.list [])⟩
  | .firstItem, token => openValue? (.list [] :: frames) token
  | .firstKey, .closeObject => some ⟨frames, .after (.record [])⟩
  | .firstKey, .str key => some ⟨frames, .colon [] key⟩
  | .key fields, .str key => some ⟨frames, .colon fields key⟩
  | .colon fields key, .colon => some ⟨.record fields key :: frames, .value⟩
  | .after value, token => closeValue? frames value token
  | _, _ => none

def finish? : Reading → Option Document
  | ⟨[], .after value⟩ => some value
  | _ => none

end Reading

def parse? (text : String) : Option Document := do
  let tokens ← Token.ofText? text.toList
  (← tokens.foldlM Reading.step? Reading.start).finish?

/-- How deep the arrays and objects of a text may be nested. -/
def nestingLimit : Nat := 127

mutual

/-- The value of a document that is nested at most so deep. Of several fields
of one key the last counts. -/
def toJson? (limit : Nat) : Document → Option Json
  | .null => some .null
  | .bool b => some (.bool b)
  | .num n => n.map .num
  | .str s => s.map .str
  | .list items =>
      match limit with
      | 0 => none
      | below + 1 => (itemsToJson? below items).map .arr
  | .record fields =>
      match limit with
      | 0 => none
      | below + 1 => (fieldsToJson? below fields).map ofFields

def itemsToJson? (limit : Nat) : List Document → Option (List Json)
  | [] => some []
  | item :: rest => do
      let item ← toJson? limit item
      return item :: (← itemsToJson? limit rest)

def fieldsToJson? (limit : Nat) :
    List (Option String × Document) → Option (List (String × Json))
  | [] => some []
  | (key, value) :: rest => do
      let key ← key
      let value ← toJson? limit value
      return (key, value) :: (← fieldsToJson? limit rest)

end

end Document

def parse? (text : String) : Option Json := do
  (← Document.parse? text).toJson? Document.nestingLimit

end TenderSearch.Json
