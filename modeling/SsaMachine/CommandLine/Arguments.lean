import SsaMachine.Text.ControlSequence

set_option autoImplicit false

/-! # Command-line arguments

The arguments select a sample by name, the function to start from, or one of the requests for
information. They are read from left to right, and the first thing that is wrong is reported.

An option that takes its value from the next argument is settled only when a further argument is
accepted, or at the end: then it is an error if the value is missing or the option was given
before. An argument that is refused for itself is reported without settling such an option. After
a lone `--`, every argument is the name of a sample.
-/

namespace SsaMachine

/-- What is wrong with the arguments. -/
inductive UsageError where
  | unexpectedArgument (argument : String)
  | unexpectedValue (value option : String)
  | missingValue (option : String)
  | repeated (option : String)
  deriving DecidableEq, Repr

/-- What is reported for wrong arguments. An argument is repeated as plain text, so that a report
never makes a terminal act. -/
def UsageError.message : UsageError → String
  | unexpectedArgument argument => "unexpected argument '" ++ Text.plain argument ++ "' found"
  | unexpectedValue value option =>
    "unexpected value '" ++ Text.plain value ++ "' for '" ++ option ++
      "' found; no more were expected"
  | missingValue option => "a value is required for '" ++ option ++ "' but none was supplied"
  | repeated option => "the argument '" ++ option ++ "' cannot be used multiple times"

/-- What the arguments ask for. -/
inductive Request where
  | help
  | version
  | list
  | run (sample entry : String)
  deriving DecidableEq, Repr

/-- The option that names the function to start from, as errors show it. -/
def entryOption : String := "--entry <ENTRY>"

/-- The option that asks for the list of samples. -/
def listOption : String := "--list"

/-- An option that still waits to be settled: without its value, or with it. -/
inductive Pending where
  | nothing
  | awaiting
  | holding (value : String)
  deriving DecidableEq, Repr

/-- The arguments read so far. -/
structure Arguments where
  sample : Option String
  entry : Option String
  list : Bool
  pending : Pending
  deriving DecidableEq, Repr

namespace Arguments

/-- No argument has been read. -/
def empty : Arguments := ⟨none, none, false, .nothing⟩

/-- Takes the name of the function to start from. -/
def setEntry (a : Arguments) (value : String) : Except UsageError Arguments :=
  if a.entry.isSome then .error (.repeated entryOption)
  else .ok { a with entry := some value, pending := .nothing }

/-- Settles the option that waits. -/
def settle (a : Arguments) : Except UsageError Arguments :=
  match a.pending with
  | .nothing => .ok a
  | .awaiting => .error (.missingValue entryOption)
  | .holding value => a.setEntry value

/-- What the arguments ask for, after the last one has been read. -/
def request (a : Arguments) : Except UsageError Request := do
  let a ← a.settle
  if a.list then return .list
  return .run (a.sample.getD "hello") (a.entry.getD "main")

/-- Takes the name of a sample. -/
def setSample (a : Arguments) (value : String) : Except UsageError Arguments := do
  if a.sample.isSome then throw (.unexpectedArgument value)
  let a ← a.settle
  return { a with sample := some value }

/-- Takes the option that asks for the list of samples. -/
def setList (a : Arguments) : Except UsageError Arguments := do
  let a ← a.settle
  if a.list then throw (.repeated listOption)
  return { a with list := true }

/-- Refuses a value for an option that takes none. -/
def noValue (option : String) : Option String → Except UsageError Unit
  | none => .ok ()
  | some value => .error (.unexpectedValue value option)

/-- What an argument leads to: more arguments are read, or the request is known. -/
inductive Progress where
  | continue (a : Arguments)
  | done (r : Request)

/-- Reads an argument that starts with two dashes. -/
def readLong (a : Arguments) (name : String) (value : Option String) :
    Except UsageError Progress := do
  if name == "entry" then
    let a ← a.settle
    match value with
    | some v => return .continue (← a.setEntry v)
    | none => return .continue { a with pending := .awaiting }
  else if name == "list" then
    noValue listOption value
    return .continue (← a.setList)
  else if name == "version" then
    noValue "--version" value
    let _ ← a.settle
    return .done .version
  else if name == "help" then
    noValue "--help" value
    let _ ← a.settle
    return .done .help
  else throw (.unexpectedArgument ("--" ++ name))

/-- Reads an argument that starts with one dash. -/
def readShort (a : Arguments) (letter : Char) : Except UsageError Progress := do
  if letter == 'V' then
    let _ ← a.settle
    return .done .version
  else if letter == 'h' then
    let _ ← a.settle
    return .done .help
  else throw (.unexpectedArgument (String.ofList ['-', letter]))

/-- The value after an equals sign. -/
def attachedValue (cs : List Char) : Option String :=
  match cs.dropWhile (· != '=') with
  | [] => none
  | _ :: value => some (String.ofList value)

/-- Reads one argument, other than a lone `--`. -/
def read (a : Arguments) (argument : String) : Except UsageError Progress :=
  match argument.toList with
  | '-' :: '-' :: cs => a.readLong (String.ofList (cs.takeWhile (· != '='))) (attachedValue cs)
  | '-' :: letter :: _ => a.readShort letter
  | _ =>
    match a.pending with
    | .awaiting => .ok (.continue { a with pending := .holding argument })
    | _ => (a.setSample argument).map .continue

/-- Reads the remaining arguments, all of them names of samples. -/
def readRest (a : Arguments) : List String → Except UsageError Request
  | [] => a.request
  | argument :: rest =>
    match a.setSample argument with
    | .error e => .error e
    | .ok a => a.readRest rest

/-- Reads the remaining arguments. -/
def readAll (a : Arguments) : List String → Except UsageError Request
  | [] => a.request
  | argument :: rest =>
    if argument == "--" then a.readRest rest
    else
      match a.read argument with
      | .error e => .error e
      | .ok (.done r) => .ok r
      | .ok (.continue a) => a.readAll rest

end Arguments

/-- What the arguments of the command line ask for. -/
def Request.ofArguments (args : List String) : Except UsageError Request :=
  Arguments.empty.readAll args

end SsaMachine
