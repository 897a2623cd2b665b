/-!
# Commands and their options

The commands of the program, the options that each of them takes, and the
options of the program itself.
-/

namespace TenderSearch.Command

/-- What stands behind the name of an option. -/
inductive Takes where
  | nothing
  | path
  | text
  | count
deriving DecidableEq

structure Parameter where
  name : String
  letter : Option Char
  takes : Takes
  isRequired : Bool
  /-- The value that stands in where the option is missing. -/
  default : Option String
  summary : String
deriving DecidableEq

inductive Verb where
  | body
  | filter
  | aggregations
  | parse
  | compact
  | inject
deriving DecidableEq

namespace Parameter

/-- An option with a path, which has to be there. -/
def file (name : String) (letter : Char) (summary : String) : Parameter :=
  { name, letter := some letter, takes := .path, isRequired := true, default := none, summary }

def flag (name : String) (letter : Option Char) (summary : String) : Parameter :=
  { name, letter, takes := .nothing, isRequired := false, default := none, summary }

def config : Parameter :=
  { name := "config", letter := some 'c', takes := .path, isRequired := false,
    default := some "tenderscope.toml",
    summary := "Path to the TOML config file (defaults apply when missing)" }

def strict : Parameter :=
  flag "strict" none "Fail on the first reported condition instead of logging it"

def help : Parameter :=
  flag "help" (some 'h') "Print help"

def version : Parameter :=
  flag "version" (some 'V') "Print version"

def options : Parameter :=
  file "options" 'o' "Search options JSON file, `-` for stdin"

def country : Parameter :=
  { name := "country", letter := none, takes := .text, isRequired := false, default := none,
    summary := "Restrict the query to one country" }

def clause : Parameter :=
  file "filter" 'f' "Filter clause JSON file, `-` for stdin"

def answer : Parameter :=
  file "answer" 'a' "Aggregations answer JSON file, `-` for stdin"

def tenders : Parameter :=
  { name := "tenders", letter := none, takes := .count, isRequired := false,
    default := some "0", summary := "Total tender count reported by the lot/bid counter" }

def names : Parameter :=
  { name := "cpv-names", letter := none, takes := .path, isRequired := false,
    default := none, summary := "JSON object mapping CPV codes to display names" }

def tree : Parameter :=
  file "tree" 't' "Search body JSON file (aggregation map with `--aggregations`), `-` for stdin"

def scope : Parameter :=
  { name := "scope", letter := some 's', takes := .text, isRequired := true, default := none,
    summary := "Nested scope path, e.g. lots.bids" }

def query : Parameter :=
  file "filter" 'f' "Filter query JSON file"

def bareMap : Parameter :=
  flag "aggregations" none "The tree is a bare aggregation map, not a search body"

/-- The options that stand before a command. -/
def ofProgram : List Parameter :=
  [config, strict, help, version]

end Parameter

namespace Verb

def all : List Verb :=
  [.body, .filter, .aggregations, .parse, .compact, .inject]

def name : Verb → String
  | .body => "body"
  | .filter => "filter"
  | .aggregations => "aggregations"
  | .parse => "parse"
  | .compact => "compact"
  | .inject => "inject"

def ofName? (name : String) : Option Verb :=
  all.find? fun verb => verb.name = name

def summary : Verb → String
  | .body => "Assemble a search body from search options"
  | .filter => "Compile a single filter clause"
  | .aggregations => "Print the combined request of named aggregations"
  | .parse => "Parse an engine answer with named aggregation parsers"
  | .compact => "Splice synthetic wrapper layers out of an aggregations answer"
  | .inject => "Push a filter below every aggregation nested at a scope"

/-- The options of a command. Those of the program may stand behind the name
of a command as well. -/
def parameters : Verb → List Parameter
  | .body => [.config, .options, .country, .strict, .help]
  | .filter => [.config, .clause, .strict, .help]
  | .aggregations => [.config, .strict, .help]
  | .parse => [.answer, .config, .strict, .tenders, .names, .help]
  | .compact => [.answer, .config, .strict, .help]
  | .inject => [.config, .tree, .scope, .strict, .query, .bareMap, .help]

/-- Whether ids follow the options of a command; then there is at least one. -/
def takesIds : Verb → Bool
  | .aggregations => true
  | .parse => true
  | _ => false

end Verb

end TenderSearch.Command
