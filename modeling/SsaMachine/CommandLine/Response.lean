import SsaMachine.CommandLine.Arguments
import SsaMachine.Log.Basic
import SsaMachine.Sample

set_option autoImplicit false

/-! # Answers to the command line

What the program answers to its arguments: a text on each of the two output streams and an exit
code. The code is zero for success, one for a failure of the sample and two for wrong arguments.
A sample that cannot be run is reported on the error stream twice, to the log and then to the
user. The log is set up before the arguments are read; if that is impossible the program breaks
off with a code of its own.
-/

namespace SsaMachine

/-- The answer to a command line. -/
structure Response where
  code : Nat
  output : ByteArray
  errors : String

namespace Response

/-- The version of the program. -/
def versionText : String := "ssarun 0.0.1\n"

/-- How the program is used. -/
def usageText : String := "Usage: ssarun [OPTIONS] [DEMO]\n"

/-- The explanation of the arguments. -/
def helpText : String :=
  "Interpreter for programs in SSA form\n\n" ++ usageText ++
  "\nArguments:\n  [DEMO]  Sample program to run [default: hello]\n" ++
  "\nOptions:\n" ++
  "      --entry <ENTRY>  Function to start from [default: main]\n" ++
  "      --list           List the sample programs and exit\n" ++
  "  -h, --help           Print help\n" ++
  "  -V, --version        Print version\n"

/-- The line that lists a sample, with its name padded to twelve characters. -/
def listLine (s : Sample) : String :=
  s.name ++ String.ofList (List.replicate (12 - s.name.length) ' ') ++ " " ++ s.summary ++ "\n"

/-- The answer that consists of a text. -/
def text (s : String) : Response :=
  ⟨0, s.toUTF8, ""⟩

/-- The line that reports an error. -/
def errorLine (message : String) : String :=
  "error: " ++ message ++ "\n"

/-- The answer to wrong arguments. -/
def misuse (e : UsageError) : Response :=
  ⟨2, .empty,
    errorLine e.message ++ "\n" ++ usageText ++ "\nFor more information, try '--help'.\n"⟩

/-- The answer when a sample cannot be run, with the output up to then. -/
def failure (log : Log) (output : ByteArray) (message : String) : Response :=
  ⟨1, output, log.failureRecord message ++ errorLine message⟩

/-- Runs a sample from the function `entry`. -/
def ofSample (log : Log) (name entry : String) : Response :=
  match Sample.find? name with
  | none =>
    failure log .empty ("Unknown demo '" ++ name ++ "', use --list to see the available ones")
  | some sample =>
    match sample.program with
    | .error d => failure log .empty d.message
    | .ok p =>
      let (result, e) := (sample.install (.new p .unlimited)).runEntry Engine.ampleFuel entry
      let output := e.resources.sink.accepted
      match result with
      | none => failure log output "The step limit was reached"
      | some (.error e) => failure log output e.message
      | some (.ok success) => ⟨if success then 0 else 1, output, ""⟩

/-- The answer to a request. -/
def ofRequest (log : Log) : Request → Response
  | .help => text helpText
  | .version => text versionText
  | .list => text (String.join (Sample.all.map listLine))
  | .run sample entry => ofSample log sample entry

/-- The answer to the arguments of the command line. -/
def ofArguments (log : Log) (args : List String) : Response :=
  match Request.ofArguments args with
  | .error e => misuse e
  | .ok r => ofRequest log r

/-- The answer to the arguments under a setting of the log, if there is one. -/
def ofCommandLine (setting : Option String) (args : List String) : Response :=
  match setting.elim (.ok Log.standard) Log.ofSetting with
  | .error notices => ⟨101, .empty, notices⟩
  | .ok log =>
    let answer := ofArguments log args
    { answer with errors := log.notices ++ answer.errors }

end Response

end SsaMachine
