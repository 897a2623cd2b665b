import TenderSearch.Command.Basic
import TenderSearch.Text.Digits

/-!
# Arguments

Arguments are read from left to right. An option has its value in the same
argument or in the next one, and stands once at most; two dashes end the
options. A value in an argument of its own is checked when the next option,
an operand or the end shows that it is complete, so that a command in between
is read first.
-/

namespace TenderSearch.Command

/-- Why arguments ask for no work. -/
inductive Stop where
  | misuse
  /-- They ask for a text about the program. -/
  | page (text : String)
deriving DecidableEq

/-- How an argument looks on its own. -/
inductive Shape where
  | separator
  /-- An option by its name, perhaps with its value. -/
  | named (name : String) (value : Option String)
  /-- Options by their letters, perhaps with the value of the last one. -/
  | letters (cluster : List Char)
  | plain

/-- What stands behind an equals sign. -/
def assigned? : List Char → Option String
  | '=' :: value => some (String.ofList value)
  | _ => none

/-- The shape of an argument. A single dash is an ordinary word. -/
def Shape.ofArgument (argument : String) : Shape :=
  match argument.toList with
  | ['-', '-'] => .separator
  | '-' :: '-' :: rest =>
      .named (String.ofList (rest.takeWhile (· ≠ '='))) (assigned? (rest.dropWhile (· ≠ '=')))
  | '-' :: first :: rest => .letters (first :: rest)
  | _ => .plain

def Takes.accepts (value : String) : Takes → Bool
  | .path => value ≠ ""
  | .count => (Text.signedNat? value.toList).any fun n => decide (n < Nat.pow 2 64)
  | _ => true

/-- What has been read of one level of arguments. -/
structure Given where
  /-- The values of options under their names. -/
  values : List (String × String)
  operands : List String
  /-- The last option, while its value may be incomplete. -/
  awaiting : Option (Parameter × Option String)

namespace Given

def nothing : Given :=
  { values := [], operands := [], awaiting := none }

def value? (given : Given) (parameter : Parameter) : Option String :=
  given.values.lookup parameter.name

def has (given : Given) (parameter : Parameter) : Bool :=
  (given.value? parameter).isSome

/-- Takes up the value of an option, which has to be the first one. -/
def put (given : Given) (parameter : Parameter) (value : String) : Except Stop Given :=
  if !given.has parameter && parameter.takes.accepts value then
    .ok { given with values := (parameter.name, value) :: given.values }
  else .error .misuse

/-- Takes up the value of the last option. -/
def settle (given : Given) : Except Stop Given :=
  match given.awaiting with
  | none => .ok given
  | some (parameter, some value) => { given with awaiting := none }.put parameter value
  | some (_, none) => .error .misuse

/-- An option that was taken up has the value it was given. -/
theorem value?_of_put {given after : Given} {parameter : Parameter} {value : String}
    (h : given.put parameter value = .ok after) : after.value? parameter = some value := by
  unfold put at h
  split at h
  · cases h
    simp [value?]
  · cases h

/-- An option is taken up once at most. -/
theorem put_of_has {given : Given} {parameter : Parameter} (value : String)
    (h : given.has parameter = true) : given.put parameter value = .error .misuse := by
  simp [put, h]

end Given

/-- The arguments that are read with one set of options: those up to a
command, or those behind it. -/
structure Level where
  parameters : List Parameter
  /-- The text that an option asks for. -/
  page? : Parameter → Option String
  commands : List String
  hasOperands : Bool

namespace Level

variable (level : Level)

def readFlag (parameter : Parameter) (given : Given) : Except Stop Given := do
  let given ← given.settle
  match level.page? parameter with
  | some text => throw (.page text)
  | none => given.put parameter ""

def readValue (parameter : Parameter) (value : Option String) (given : Given) :
    Except Stop Given := do
  let given ← given.settle
  match value with
  | some value => given.put parameter value
  | none => return { given with awaiting := some (parameter, none) }

def readNamed (name : String) (value : Option String) (given : Given) : Except Stop Given :=
  match level.parameters.find? fun parameter => parameter.name = name with
  | none => .error .misuse
  | some parameter =>
      match parameter.takes, value with
      | .nothing, none => level.readFlag parameter given
      | .nothing, some _ => .error .misuse
      | _, value => readValue parameter value given

/-- The value of an option in the rest of its cluster of letters. -/
def clusterValue? : List Char → Option String
  | [] => none
  | '=' :: value => some (String.ofList value)
  | value => some (String.ofList value)

def readLetters : List Char → Given → Except Stop Given
  | [], given => .ok given
  | letter :: rest, given =>
      match level.parameters.find? fun parameter => parameter.letter = some letter with
      | none => .error .misuse
      | some parameter =>
          if parameter.takes = .nothing then
            level.readFlag parameter given >>= readLetters rest
          else readValue parameter (clusterValue? rest) given

def readOperand (given : Given) (argument : String) : Except Stop Given := do
  if level.hasOperands then
    let given ← given.settle
    return { given with operands := given.operands ++ [argument] }
  else throw .misuse

/-- An ordinary word: the value of the option before it, or an operand. -/
def readWord (given : Given) (argument : String) : Except Stop Given :=
  match given.awaiting with
  | some (parameter, none) => .ok { given with awaiting := some (parameter, some argument) }
  | _ => level.readOperand given argument

/-- Whether an option has its value in the next argument. -/
def isOpen (given : Given) : Bool :=
  given.awaiting.any fun (_, value) => value.isNone

/-- Reads arguments up to the end or to the name of a command, which is given
back with the arguments behind it. -/
def read : List String → Given → Except Stop (Given × Option (String × List String))
  | [], given => .ok (given, none)
  | argument :: rest, given =>
      if !isOpen given && argument ∈ level.commands then .ok (given, some (argument, rest))
      else
        match Shape.ofArgument argument with
        | .separator => do
            let given ← rest.foldlM level.readOperand given
            return (given, none)
        | .named name value => level.readNamed name value given >>= read rest
        | .letters cluster => level.readLetters cluster given >>= read rest
        | .plain => level.readWord given argument >>= read rest

end Level

end TenderSearch.Command
