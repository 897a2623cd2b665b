import TenderSearch.Command.Arguments
import TenderSearch.Command.Page

/-!
# Invocations

What a command line asks for: the work of a command, the settings file to do
it with, and whether it is strict. An option of the program counts behind the
command rather than before it.
-/

namespace TenderSearch.Command

/-- The work of a command. Paths are kept as they were given. -/
inductive Request where
  | body (options : String) (country : Option String)
  | filter (clause : String)
  | aggregations (ids : List String)
  | parse (answer : String) (tenders : Nat) (names : Option String) (ids : List String)
  | compact (answer : String)
  | inject (tree scope query : String) (isMap : Bool)
deriving DecidableEq

/-- What a command line asks for. -/
structure Invocation where
  config : String
  isStrict : Bool
  request : Request
deriving DecidableEq

/-- The value of an option, or its default. -/
def Given.valueOf? (given : Given) (parameter : Parameter) : Option String :=
  (given.value? parameter).or parameter.default

def Given.ids? (given : Given) : Option (List String) :=
  if given.operands.isEmpty then none else some given.operands

/-- The work of a command, if every option is there that it needs. -/
def Verb.request? (given : Given) : Verb → Option Request
  | .body => return .body (← given.value? .options) (given.value? .country)
  | .filter => return .filter (← given.value? .clause)
  | .aggregations => return .aggregations (← given.ids?)
  | .parse => do
      let answer ← given.value? .answer
      let tenders ← Text.signedNat? (← given.valueOf? .tenders).toList
      return .parse answer tenders (given.value? .names) (← given.ids?)
  | .compact => return .compact (← given.value? .answer)
  | .inject => do
      let tree ← given.value? .tree
      let scope ← given.value? .scope
      return .inject tree scope (← given.value? .query) (given.has .bareMap)

def programLevel : Level :=
  { parameters := Parameter.ofProgram
    page? := fun parameter =>
      if parameter = .help then some programPage
      else if parameter = .version then some versionPage
      else none
    commands := Verb.all.map Verb.name ++ ["help"]
    hasOperands := false }

def Verb.level (verb : Verb) : Level :=
  { parameters := verb.parameters
    page? := fun parameter => if parameter = .help then some verb.page else none
    commands := []
    hasOperands := verb.takesIds }

/-- What the help command shows. -/
def helpOn : List String → Stop
  | [] => .page programPage
  | [name] =>
      match Verb.ofName? name with
      | some verb => .page verb.page
      | none => if name = "help" then .page helpPage else .misuse
  | _ => .misuse

def Verb.read (verb : Verb) (arguments : List String) : Except Stop (Given × Request) := do
  let (given, _) ← verb.level.read arguments Given.nothing
  let given ← given.settle
  match verb.request? given with
  | some request => return (given, request)
  | none => throw .misuse

def Invocation.read (arguments : List String) : Except Stop Invocation := do
  let (outer, next) ← programLevel.read arguments Given.nothing
  match next with
  | none => throw .misuse
  | some (name, rest) =>
      match Verb.ofName? name with
      | none => throw (helpOn rest)
      | some verb =>
          let (inner, request) ← verb.read rest
          let outer ← outer.settle
          match (inner.value? .config).or (outer.valueOf? .config) with
          | some config =>
              return { config, isStrict := inner.has .strict || outer.has .strict, request }
          | none => throw .misuse

def Request.paths : Request → List String
  | .body options _ => [options]
  | .filter clause => [clause]
  | .aggregations _ => []
  | .parse answer _ names _ => answer :: names.toList
  | .compact answer => [answer]
  | .inject tree _ query _ => [query, tree]

end TenderSearch.Command
