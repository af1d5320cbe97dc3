import SsaMachine.CommandLine.Response

set_option autoImplicit false

/-! # The command line

Prints the answer to the arguments and exits with its code. The variable `SSARUN_LOG` of the
environment sets the log.
-/

/-- Answers the command line. -/
def main (args : List String) : IO UInt32 := do
  let response := SsaMachine.Response.ofCommandLine (← IO.getEnv "SSARUN_LOG") args
  let out ← IO.getStdout
  out.write response.output
  out.flush
  IO.eprint response.errors
  return response.code.toUInt32
