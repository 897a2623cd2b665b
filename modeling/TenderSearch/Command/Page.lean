import TenderSearch.Command.Basic

/-!
# Help pages

The program describes its commands and each command its options, in tables of
two columns.
-/

namespace TenderSearch.Command

/-- How the value of an option is called on a page. -/
def Parameter.valueName (parameter : Parameter) : String :=
  "<" ++ parameter.name.map (fun c => if c = '-' then '_' else c.toUpper) ++ ">"

def Parameter.usage (parameter : Parameter) : String :=
  match parameter.takes with
  | .nothing => "--" ++ parameter.name
  | _ => "--" ++ parameter.name ++ " " ++ parameter.valueName

def Parameter.row (parameter : Parameter) : String × String :=
  ((match parameter.letter with
      | some letter => String.ofList ['-', letter, ',', ' ']
      | none => "    ") ++ parameter.usage,
    match parameter.default with
    | some value => parameter.summary ++ " [default: " ++ value ++ "]"
    | none => parameter.summary)

/-- A titled table whose second column starts behind the longest entry of the
first. -/
def table (title : String) (rows : List (String × String)) : String :=
  let width := (rows.map fun row => row.1.length).foldl max 0
  title ++ ":" ++ String.join (rows.map fun (left, right) =>
    "\n  " ++ left ++ String.ofList (List.replicate (width - left.length + 2) ' ') ++ right)

/-- A page of paragraphs. -/
def page (paragraphs : List String) : String :=
  String.intercalate "\n\n" paragraphs ++ "\n"

def helpSummary : String :=
  "Print this message or the help of the given subcommand(s)"

def programPage : String :=
  page ["Tenderscope - search body compiler and aggregation answer tools",
    "Usage: tenderscope [OPTIONS] <COMMAND>",
    table "Commands" ((Verb.all.map fun verb => (verb.name, verb.summary)) ++
      [("help", helpSummary)]),
    table "Options" (Parameter.ofProgram.map Parameter.row)]

def helpPage : String :=
  page [helpSummary, "Usage: tenderscope help [COMMAND]...",
    table "Arguments" [("[COMMAND]...", "Print help for the subcommand(s)")]]

def Verb.page (verb : Verb) : String :=
  let required := verb.parameters.filter Parameter.isRequired
  let ids := if verb.takesIds then ["<IDS>..."] else []
  Command.page ([verb.summary,
    "Usage: " ++ String.intercalate " "
      (["tenderscope", verb.name, "[OPTIONS]"] ++ required.map Parameter.usage ++ ids)] ++
    (if verb.takesIds then [table "Arguments" [("<IDS>...", "Named aggregation ids")]] else []) ++
    [table "Options" (verb.parameters.map Parameter.row)])

def versionPage : String :=
  "tenderscope 0.1.0\n"

end TenderSearch.Command
