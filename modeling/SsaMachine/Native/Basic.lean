import SsaMachine.Memory.Cells
import SsaMachine.Native.Sink
import SsaMachine.Value.Text

set_option autoImplicit false

/-! # Host functions

A native is a function that the host provides. It is given the arguments of the call, may
create and change cells and write to the sink, and answers with a value or a fault. Beside
that it may depend on nothing but how often it has been called since it was registered, so
that a run is determined by the state it starts from. Whatever it did to the cells and the sink
before a fault remains.
-/

namespace SsaMachine

/-- A host function. The first argument is the number of this call, counted from one. -/
structure Native where
  respond : (call : Nat) → List Value → Memory → Sink → Except Fault Value × Memory × Sink

namespace Native

/-- A native that computes its answer from its arguments and has no effect. -/
def pure (f : List Value → Except Fault Value) : Native where
  respond _ args m s := (f args, m, s)

/-- A native that writes a text, and answers with the unit unless that fails. -/
def writing (write : Sink → String → Option String × Sink) (text : List Value → String) :
    Native where
  respond _ args m s :=
    match write s (text args) with
    | (some failure, s) => (.error (.output failure), m, s)
    | (none, s) => (.ok .unit, m, s)

/-- Prints the texts of its arguments one after another, and flushes. -/
def print : Native :=
  writing Sink.writeThrough (Value.joinTexts "")

/-- Prints the texts of its arguments, separated by spaces, as a line, and flushes. -/
def println : Native :=
  writing Sink.writeThrough fun args => Value.joinTexts " " args ++ "\n"

/-- Writes a line with a label and the texts of its arguments, without flushing. -/
def labelled (label separator : String) : Native :=
  writing Sink.write fun args => label ++ ": " ++ Value.joinTexts separator args ++ "\n"

/-- Answers with a fixed value. -/
def constant (v : Value) : Native :=
  pure fun _ => .ok v

/-- Answers with its first argument, or the unit. -/
def echo : Native :=
  pure fun args => .ok (args.headD .unit)

/-- Answers with the number of its arguments. -/
def argumentCount : Native :=
  pure fun args => .ok (.int (Word.ofInt .int args.length))

/-- Tells whether its first two arguments are equal, or both absent. -/
def same : Native :=
  pure fun args => .ok (.bool (args[0]? == args[1]?))

/-- Answers with the number of times it has been called. -/
def counter : Native where
  respond call _ m s := (.ok (.int (Word.ofInt .int call)), m, s)

/-- Creates a cell that holds its first argument, or the unit, and answers with its address. -/
def allocate : Native where
  respond _ args m s :=
    let (a, m) := m.alloc (args.headD .unit)
    (.ok (.address a), m, s)

/-- Always fails, reporting the texts of its arguments. -/
def failing (name : String) : Native :=
  pure fun args => .error (.native name (Value.joinTexts " " args))

end Native

end SsaMachine
