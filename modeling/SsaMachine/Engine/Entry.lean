import SsaMachine.Engine.Basic
import SsaMachine.Program.Verify

set_option autoImplicit false

/-! # Entry points

Running a program from the outside means to run one of its functions that takes no arguments.
The program is verified and its global variables are created first. The result of the function
decides whether the run counts as a success.
-/

namespace SsaMachine

/-- Why a function could not be run to its end. -/
inductive EntryError where
  | defective (d : Defect)
  | notFound (name : String)
  | takesArguments (name : String) (count : Nat)
  | failed (f : Failure)

/-- What is reported when a function could not be run to its end. -/
def EntryError.message : EntryError → String
  | defective d => d.message
  | notFound name => "Function '" ++ name ++ "' not found"
  | takesArguments name count =>
    "Function '" ++ name ++ "' takes " ++ toString count ++
      " arguments, only zero-argument functions are supported"
  | failed f => f.message

/-- Whether a result counts as a success: the unit, truth, and zero of any integer type do. -/
def Value.isSuccess : Value → Bool
  | unit => true
  | bool b => b
  | int w => w.toInt == 0
  | _ => false

namespace Engine

/-- Runs the function with a name. -/
def runFunction (e : Engine) (fuel : Nat) (name : String) :
    Option (Except EntryError Value) × Engine :=
  match e.program.verify with
  | .error d => (some (.error (.defective d)), e)
  | .ok () =>
    match e.program.functionId? name with
    | none => (some (.error (.notFound name)), e)
    | some id =>
      match e.program.function? id with
      | none => (some (.error (.notFound name)), e)
      | some f =>
        if f.params.length ≠ 0 then
          (some (.error (.takesArguments name f.params.length)), e)
        else
          match e.setUpGlobals with
          | (.error failure, e) => (some (.error (.failed failure)), e)
          | (.ok (), e) =>
            let (result, e) := e.call fuel (.function id) []
            (result.map (·.mapError .failed), e)

/-- Runs the function with a name, and tells whether it succeeded. -/
def runEntry (e : Engine) (fuel : Nat) (name : String) :
    Option (Except EntryError Bool) × Engine :=
  let (result, e) := e.runFunction fuel name
  (result.map (·.map Value.isSuccess), e)

/-- Runs the function `main`, and tells whether it succeeded. -/
def runMain (e : Engine) (fuel : Nat) : Option (Except EntryError Bool) × Engine :=
  e.runEntry fuel "main"

end Engine

end SsaMachine
