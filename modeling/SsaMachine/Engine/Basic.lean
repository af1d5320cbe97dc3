import SsaMachine.Machine.Step

set_option autoImplicit false

/-! # Engines

An engine executes the functions of one program. Between runs it keeps what later runs can
observe: the cells of the global variables, all other cells, the registered natives and the
output. Each run starts the machine in that state and leaves the state it ended in, whether it
ended with a value or with a failure.

A run is given a number of steps. If it needs more, it has no result, which is written `none`.
-/

namespace SsaMachine

/-- An engine for a program. -/
structure Engine where
  program : Program
  globals : Globals
  resources : Resources

namespace Engine

/-- An engine that has not executed anything yet. -/
def new (p : Program) (sink : Sink) : Engine where
  program := p
  globals := .empty
  resources := ⟨.empty, .standard, sink⟩

/-- More steps than a run takes that anyone waits for. -/
def ampleFuel : Nat := 1000000000000

/-- What stays the same during a run. -/
def context (e : Engine) : Context :=
  ⟨e.program, e.globals⟩

/-- Makes a native callable by name, also as the body of a function declared without one. -/
def register (e : Engine) (name : String) (native : Native) : Engine :=
  { e with resources.registry := e.resources.registry.register name native }

/-- Creates the global variables of the program, unless that has happened before. -/
def setUpGlobals (e : Engine) : Except Failure Unit × Engine :=
  match e.globals.setUp e.program.globals e.resources.memory with
  | .error fault => (.error ⟨fault, none⟩, e)
  | .ok (globals, memory) =>
    (.ok (), { e with globals := globals, resources.memory := memory })

/-- The value of a global variable. -/
def global (e : Engine) (name : String) : Except Failure Value :=
  match e.globals.read e.resources.memory name with
  | .error fault => .error ⟨fault, none⟩
  | .ok v => .ok v

/-- Changes the value of a global variable. -/
def setGlobal (e : Engine) (name : String) (v : Value) : Except Failure Unit × Engine :=
  match e.globals.write e.resources.memory name v with
  | .error fault => (.error ⟨fault, none⟩, e)
  | .ok memory => (.ok (), { e with resources.memory := memory })

/-- Calls a function or a native. -/
def call (e : Engine) (fuel : Nat) (callee : Callee) (args : List Value) :
    Option (Except Failure Value) × Engine :=
  let s := e.context.run fuel (e.context.start e.resources callee args)
  (s.result?, { e with resources := s.resources })

/-- Calls the function with a name or, if the program has none, the native with that name. -/
def callNamed (e : Engine) (fuel : Nat) (name : String) (args : List Value) :
    Option (Except Failure Value) × Engine :=
  match e.program.functionId? name with
  | some id => e.call fuel (.function id) args
  | none => e.call fuel (.builtin name) args

end Engine

end SsaMachine
