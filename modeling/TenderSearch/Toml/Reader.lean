import TenderSearch.Toml.Scalar

/-!
# Reading TOML text

A document is read into sections: the assignments before the first header,
and those under each header. The sections are then put together into one
table, where nothing may be defined twice.
-/

namespace TenderSearch.Toml

open Toml.Text (isBlank isControl)

/-- Containers may be nested in each other up to this depth. -/
def nestingLimit : Nat := 79

/-- A dotted key has at most so many parts. -/
def keyLimit : Nat := 79

/-- The text without the blanks at its start. -/
def dropBlanks (text : List Char) : List Char :=
  text.dropWhile isBlank

/-- A character of a key without quotes. -/
def isKeyChar (c : Char) : Bool :=
  c.isAlphanum || c = '-' || c = '_'

/-- One part of a key, and what follows it. -/
def readPart? (text : List Char) : Option (String × List Char) :=
  match text with
  | '"' :: _ => Text.readLine? text
  | '\'' :: _ => Text.readLine? text
  | text =>
      match text.takeWhile isKeyChar with
      | [] => none
      | part => some (String.ofList part, text.dropWhile isKeyChar)

/-- The parts of a dotted key, at most so many, and what follows the key and
the blanks after it. -/
def readParts? : Nat → List Char → Option (List String × List Char)
  | 0, _ => none
  | limit + 1, text => do
      let (part, rest) ← readPart? (dropBlanks text)
      match dropBlanks rest with
      | '.' :: rest =>
          let (parts, rest) ← readParts? limit rest
          return (part :: parts, rest)
      | rest => return ([part], rest)

def readKey? (text : List Char) : Option (List String × List Char) :=
  readParts? keyLimit text

/-- The text after blanks, line breaks and comments; none where a comment
holds a control character. -/
def dropFiller? (comment : Bool) : List Char → Option (List Char)
  | [] => some []
  | '\n' :: rest => dropFiller? false rest
  | '\r' :: '\n' :: rest => dropFiller? false rest
  | c :: rest =>
      if comment then (if isControl c then none else dropFiller? true rest)
      else if isBlank c then dropFiller? false rest
      else if c = '#' then dropFiller? true rest
      else some (c :: rest)

/-- The items of an array, of which each step reads one, up to its closing
bracket. A comma may stand after the last one. -/
def readItems? (step : List Char → Option (Value × List Char)) :
    Nat → List Char → Option (List Value × List Char)
  | 0, _ => none
  | fuel + 1, text => do
      match ← dropFiller? false text with
      | ']' :: rest => return ([], rest)
      | text =>
          let (item, rest) ← step text
          match ← dropFiller? false rest with
          | ',' :: rest =>
              let (items, rest) ← readItems? step fuel rest
              return (item :: items, rest)
          | ']' :: rest => return ([item], rest)
          | _ => none

/-- An assignment, where a step reads its value. -/
def readAssignment? (step : List Char → Option (Value × List Char)) (text : List Char) :
    Option ((List String × Value) × List Char) := do
  let (key, rest) ← readKey? text
  match rest with
  | '=' :: rest =>
      let (value, rest) ← step (dropBlanks rest)
      return ((key, value), rest)
  | _ => none

/-- The assignments of a table in braces, of which there is at least one, up
to its closing brace. -/
def readPairs? (step : List Char → Option (Value × List Char)) :
    Nat → List Char → Option (List (List String × Value) × List Char)
  | 0, _ => none
  | fuel + 1, text => do
      let (pair, rest) ← readAssignment? step text
      match dropBlanks rest with
      | ',' :: rest =>
          let (pairs, rest) ← readPairs? step fuel rest
          return (pair :: pairs, rest)
      | '\x7d' :: rest => return ([pair], rest)
      | _ => none

/-- The value at the head of a text, with so much nesting left, and what
follows it. -/
def readValue? : Nat → List Char → Option (Value × List Char)
  | limit, '"' :: rest => readText? limit ('"' :: rest)
  | limit, '\'' :: rest => readText? limit ('\'' :: rest)
  | 0, '[' :: _ => none
  | limit + 1, '[' :: rest => do
      let (items, rest) ← readItems? (readValue? limit) (rest.length + 1) rest
      return (.list items, rest)
  | 0, '\x7b' :: _ => none
  | limit + 1, '\x7b' :: rest =>
      match dropBlanks rest with
      | '\x7d' :: rest => some (.table .inline [], rest)
      | text => do
          let (pairs, rest) ← readPairs? (readValue? limit) (text.length + 1) text
          let entries ← Entries.assignAll? true [] pairs
          return (.table .inline entries, rest)
  | _, text => Scalar.read? text
where
  readText? (_ : Nat) (text : List Char) : Option (Value × List Char) :=
    (Text.read? text).map fun (s, rest) => (.text s, rest)

/-- What follows a line whose content has been read: perhaps a comment, then a
line break or the end. -/
def endLine? (comment : Bool) : List Char → Option (List Char)
  | [] => some []
  | '\n' :: rest => some rest
  | '\r' :: '\n' :: rest => some rest
  | c :: rest =>
      if comment then (if isControl c then none else endLine? true rest)
      else if isBlank c then endLine? false rest
      else if c = '#' then endLine? true rest
      else none

inductive Line where
  | header (path : List String)
  | repeated (path : List String)
  | assignment (key : List String) (value : Value)

/-- The line at the head of a text that does not start with filler, and the
text after it. -/
def readLine? : List Char → Option (Line × List Char)
  | '[' :: '[' :: rest => do
      let (path, rest) ← readKey? rest
      match rest with
      | ']' :: ']' :: rest => return (.repeated path, ← endLine? false rest)
      | _ => none
  | '[' :: rest => do
      let (path, rest) ← readKey? rest
      match rest with
      | ']' :: rest => return (.header path, ← endLine? false rest)
      | _ => none
  | text => do
      let ((key, value), rest) ← readAssignment? (readValue? nestingLimit) text
      return (.assignment key value, ← endLine? false rest)

def readLines? : Nat → List Char → Option (List Line)
  | 0, _ => none
  | fuel + 1, text => do
      match ← dropFiller? false text with
      | [] => return []
      | text =>
          let (line, rest) ← readLine? text
          return line :: (← readLines? fuel rest)

/-- The assignments at the head of a list of lines. -/
def leadingAssignments : List Line → List (List String × Value)
  | .assignment key value :: rest => (key, value) :: leadingAssignments rest
  | _ => []

/-- Adds the section of a header to a table. -/
def addSection? (add : String → List (List String × Value) → Entries → Option Entries)
    (path : List String) (assignments : List (List String × Value)) (entries : Entries) :
    Option Entries := do
  let key ← path.getLast?
  entries.within? (add key assignments) path.dropLast

/-- Adds the sections of lines that start with a header to a table. -/
def addSections? (entries : Entries) : List Line → Option Entries
  | [] => some entries
  | .header path :: rest => do
      addSections? (← addSection? Entries.addTable? path (leadingAssignments rest) entries) rest
  | .repeated path :: rest => do
      addSections? (← addSection? Entries.addRepeated? path (leadingAssignments rest) entries) rest
  | .assignment _ _ :: rest => addSections? entries rest

/-- The table that lines define. -/
def ofLines? (lines : List Line) : Option Entries := do
  addSections? (← Entries.assignAll? false [] (leadingAssignments lines)) lines

/-- The table that a text defines. A byte order mark may stand in front. -/
def parse? (text : String) : Option Entries :=
  let content := match text.toList with
    | '\uFEFF' :: rest => rest
    | rest => rest
  (readLines? (content.length + 1) content).bind ofLines?

end TenderSearch.Toml
