import TenderSearch.Catalog.Selection
import TenderSearch.Command.Invocation
import TenderSearch.Json.Document
import TenderSearch.Search.Record
import TenderSearch.Session
import TenderSearch.Settings.File
import TenderSearch.Text.Hidden
import TenderSearch.Tree.Compaction
import TenderSearch.Tree.Injection

/-!
# Running commands

A command reads its files, does its work under the settings, and prints one
JSON value. Standard input stands for a file with the path `-`; what has been
read of it is gone.
-/

namespace TenderSearch.Command

inductive File where
  | missing
  /-- Something that is not a text. -/
  | unreadable
  | text (content : String)

inductive Failure where
  | settings (path : String)
  | unreadable (path : String)
  | notJson (path : String)
  | condition (condition : Condition)
  /-- The injected query would be injected into itself without end. -/
  | endless
deriving DecidableEq

def Failure.message : Failure → String
  | .settings path => "Failed to load config from " ++ Text.revealed path
  | .unreadable path => "Failed to read " ++ Text.revealed path
  | .notJson path => "Invalid JSON in " ++ Text.revealed path
  | .condition cause => cause.message
  | .endless => "The filter holds the scope that it is injected at"

inductive Outcome where
  | printed (text : String)
  | misuse
  | failed (failure : Failure)

def Outcome.exitCode : Outcome → Nat
  | .printed _ => 0
  | .failed _ => 1
  | .misuse => 2

/-- Work that reads files, and standard input as far as it is left. -/
abbrev Work := ReaderT (String → File) (StateT String (Except Failure))

/-- Whether a path stands for standard input. Neither a separator at its end
nor a dot behind a separator changes a path. -/
def isStandardInput (path : String) : Bool :=
  match path.splitOn "/" with
  | "-" :: rest => rest.all fun part => part = "" ∨ part = "."
  | _ => false

def contentOf (path : String) : Work String := do
  if isStandardInput path then modifyGet fun input => (input, "")
  else
    match (← read) path with
    | .text content => return content
    | _ => throw (.unreadable path)

def parsed {α : Type} (parse? : String → Option α) (path : String) : Work α := do
  match parse? (← contentOf path) with
  | some a => return a
  | none => throw (.notJson path)

/-- The settings of a file, or the standard ones where there is no file. -/
def loadSettings (path : String) : Work Settings := do
  let loaded :=
    match (← read) path with
    | .missing => Settings.loadOrStandard none
    | .unreadable => .error .unreadable
    | .text content => Settings.loadOrStandard (some content)
  match loaded with
  | .ok settings => return settings
  | .error _ => throw (.settings path)

/-- Work that may raise conditions, in the mode of the settings. -/
def reported {α : Type} (settings : Settings) (work : Report α) : Work α :=
  match work.runIn settings.mode [] with
  | (.ok a, _) => return a
  | (.error condition, _) => throw (.condition condition)

/-- The tree after an injection. -/
def injected {α : Type} : Option (α × Nat) → Work α
  | some (tree, _) => return tree
  | none => throw .endless

/-- The value that a command prints. -/
def Request.value (settings : Settings) (thisYear : Int) : Request → Work Json
  | .body options country => do
      let search ← parsed (Search.Part.search.parse? Search.ofJson?) options
      reported settings (search.bodyIn settings.search country)
  | .filter clause => do
      let clause ← parsed (Search.Part.clause.parse? Clause.ofJson?) clause
      let fragment ← reported settings (clause.compile settings.search.scopes)
      return fragment.getD .null
  | .aggregations ids => do
      let selection ← reported settings (Catalog.select ids)
      return .obj selection.request
  | .parse answer tenders names ids => do
      let answer ← parsed Json.parse? answer
      let names ← names.mapM (parsed fun text => (Json.parse? text).bind Json.texts?)
      let context := settings.context thisYear
        (fun code _ => names.bind (Table.get? code)) tenders
      let table ← reported settings do
        (← Catalog.select ids).read context answer
      return .obj (table.map fun (id, summary) => (id, summary.toJson))
  | .compact answer => return Tree.compact (← parsed Json.parse? answer)
  | .inject tree scope query isMap => do
      let query ← parsed Json.parse? query
      if isMap then
        let map ← parsed (fun text => (Json.parse? text).bind Json.fields?) tree
        return .obj (← injected (Tree.injectIntoMap scope query map))
      else injected (Tree.inject scope query (← parsed Json.parse? tree))

/-- The value that an invocation prints. The settings come first. -/
def Invocation.value (thisYear : Int) (invocation : Invocation) : Work Json := do
  let settings ← loadSettings invocation.config
  invocation.request.value (if invocation.isStrict then settings.strictly else settings) thisYear

/-- Runs a command line on files and standard input. -/
def run (thisYear : Int) (files : String → File) (input : String) (arguments : List String) :
    Outcome :=
  match Invocation.read arguments with
  | .error .misuse => .misuse
  | .error (.page text) => .printed text
  | .ok invocation =>
      match ((invocation.value thisYear).run files).run input with
      | .ok (value, _) => .printed (value.pretty ++ "\n")
      | .error failure => .failed failure

end TenderSearch.Command
