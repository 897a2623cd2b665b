import TenderSearch.Catalog.Selection
import TenderSearch.Settings.Basic
import TenderSearch.Tree.Compaction
import TenderSearch.Tree.Injection

/-!
# Sessions

A session works on one current tree, step by step, and remembers the last
selection and every condition that was recorded. A step that fails leaves the
session as it was.
-/

namespace TenderSearch

open Catalog (Selection Summary)

/-- The current tree, the current selection and the recorded conditions. -/
structure Session where
  tree : Json
  selection : Option Selection
  issues : List Condition

/-- How the catalog's answers are read under settings. -/
def Settings.context (settings : Settings) (thisYear : Int)
    (names : String → String → Option String) (tenders : Nat) : Catalog.Context :=
  { names, language := settings.reading.language, tenders,
    firstYear := settings.reading.firstYear,
    lastYear := settings.reading.lastYear.getD thisYear }

namespace Session

def start (tree : Json) : Session :=
  { tree, selection := none, issues := [] }

inductive Step where
  /-- The tree becomes a compiled clause with its joined clauses. -/
  | filter (clause : Clause)
  /-- The tree becomes a clause compiled alone. -/
  | clause (clause : Clause)
  | aggregations (aggregations : List Aggregation)
  | body (search : Search)
  | bodyIn (country : Option String) (search : Search)
  | restrict (country : String)
  | inject (scope : String) (filter : Json)
  | injectIntoMap (scope : String) (filter : Json)
  | compact
  | select (ids : List String)
  | set (tree : Json)
  /-- Reads an answer, or the tree if there is none, with the selection. -/
  | read (answer : Option Json) (names : String → String → Option String) (tenders : Nat)

inductive Outcome where
  | done
  | wrapped (count : Nat)
  | selected (ids : List String)
  | parsed (table : List (String × Summary))

/-- Why a step cannot be taken at all. -/
inductive Refusal where
  | noSelection
  | notAMap
  /-- The injected query would be injected into itself without end. -/
  | endless
deriving DecidableEq

inductive Failure where
  | refused (refusal : Refusal)
  | condition (condition : Condition)
deriving DecidableEq

/-- What a step changes, if it can be taken. -/
abbrev Change := Outcome × Json × Option Selection

/-- Only the tree changes. -/
def Change.tree (session : Session) (tree : Json) : Change :=
  (.done, tree, session.selection)

/-- The tree changes after some aggregations of it were wrapped. -/
def Change.injected (session : Session) : Option (Json × Nat) → Except Refusal (Report Change)
  | some (tree, count) => .ok (return (.wrapped count, tree, session.selection))
  | none => .error .endless

/-- The work of a step. -/
def work (settings : Settings) (thisYear : Int) (session : Session) :
    Step → Except Refusal (Report Change)
  | .filter clause => .ok do
      let fragment ← clause.compile settings.search.scopes
      return Change.tree session (fragment.getD .null)
  | .clause clause => .ok do
      return Change.tree session ((← clause.compileAlone).getD .null)
  | .aggregations aggregations => .ok do
      return Change.tree session (.obj
        (Aggregation.request settings.search.scopes settings.search.defaultSize aggregations))
  | .body search => .ok do
      return Change.tree session (← search.body settings.search)
  | .bodyIn country search => .ok do
      return Change.tree session (← Search.bodyIn settings.search country search)
  | .restrict country => .ok do
      return Change.tree session
        (← (Search.restrict settings.search.countryField country).on session.tree)
  | .inject scope filter => Change.injected session (Tree.inject scope filter session.tree)
  | .injectIntoMap scope filter =>
      match session.tree with
      | .obj map =>
          Change.injected session ((Tree.injectIntoMap scope filter map).map
            fun (map, count) => (.obj map, count))
      | _ => .error .notAMap
  | .compact => .ok (return Change.tree session (Tree.compact session.tree))
  | .select ids => .ok do
      let selection ← Catalog.select ids
      return (.selected selection.ids, .obj selection.request, some selection)
  | .set tree => .ok (return Change.tree session tree)
  | .read answer names tenders =>
      match session.selection with
      | none => .error .noSelection
      | some selection => .ok do
          let context := settings.context thisYear names tenders
          let table ← selection.read context (answer.getD session.tree)
          return (.parsed table, session.tree, session.selection)

def take (settings : Settings) (thisYear : Int) (session : Session) (step : Step) :
    Except Failure (Outcome × Session) :=
  match work settings thisYear session step with
  | .error refusal => .error (.refused refusal)
  | .ok work =>
      match work.runIn settings.mode session.issues with
      | (.error condition, _) => .error (.condition condition)
      | (.ok (outcome, tree, selection), issues) => .ok (outcome, { tree, selection, issues })

end Session

end TenderSearch
