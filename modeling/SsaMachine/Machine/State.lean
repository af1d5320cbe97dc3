import SsaMachine.Machine.Frame
import SsaMachine.Native.Registry
import SsaMachine.Program.Basic

set_option autoImplicit false

/-! # States of the machine

The machine executes one call at a time, the top of a stack of calls. The calls below it wait,
each at the call instruction that started the one above. The stack is part of the state, so that
every property of a run, at any depth of calls, is a property of the states it passes through.

A fault ends the whole run. What goes wrong before a call has reached its first instruction, or
between two blocks, is blamed on the instruction that made the call, and on none if the host made
it.
-/

namespace SsaMachine

/-- Where a call is within its current block: about to execute the phis at the head, or the
instruction at a position. -/
inductive Point where
  | head
  | instr (index : Nat)
  deriving DecidableEq, Repr

/-- A call that is being executed. -/
structure Activation where
  function : Function
  frame : Frame
  point : Point

/-- A call that waits for the call made by the instruction at `index` of `block`; the result
will be bound to `dest`. -/
structure Caller where
  function : Function
  frame : Frame
  block : BlockId
  index : Nat
  dest : Option ValueId

/-- A run is going on, or it has ended with a value or a failure. -/
inductive Status where
  | running (top : Activation) (callers : List Caller)
  | halted (result : Except Failure Value)

/-- The state of a run. -/
structure State where
  status : Status
  resources : Resources

/-- What a callee stands for: a host function, or a function with a body. -/
inductive Target where
  | native (name : String)
  | body (f : Function)

namespace Caller

/-- The place of the call instruction. -/
def location (a : Caller) : Location :=
  ⟨a.function.name, a.block, a.index⟩

/-- The call goes on after the call instruction, with the result bound. -/
def resume (a : Caller) (v : Value) : Except Failure Activation :=
  match a.frame.define a.dest v with
  | .error fault => .error ⟨fault, some a.location⟩
  | .ok frame => .ok ⟨a.function, frame, .instr (a.index + 1)⟩

end Caller

namespace Activation

/-- Binds the arguments of a call to the parameters, the first of which has the number `index`. -/
def bindParams (function : String) (index : Nat) (frame : Frame) :
    List (Param × Value) → Except Fault Frame
  | [] => .ok frame
  | (param, arg) :: rest =>
    if param.ty.admits arg then
      match frame.bind index arg with
      | .error fault => .error fault
      | .ok frame => bindParams function (index + 1) frame rest
    else .error (.argumentType function param.name param.ty arg.kind)

/-- The start of a call. -/
def enter (f : Function) (args : List Value) : Except Fault Activation :=
  if f.params.length ≠ args.length then
    .error (.arity f.name f.params.length args.length)
  else
    match bindParams f.name 0 (.start f.valueCount f.entry) (f.params.zip args) with
    | .error fault => .error fault
    | .ok frame => .ok ⟨f, frame, .head⟩

end Activation

namespace Program

/-- What a callee stands for. A function without a body stands for the host function of its
name. -/
def target (p : Program) : Callee → Except Fault Target
  | .builtin name => .ok (.native name)
  | .function id =>
    match p.function? id with
    | none => .error (.unknownFunction id)
    | some f => if f.isExternal then .ok (.native f.name) else .ok (.body f)

end Program

namespace State

/-- The end of a run. -/
def halt (resources : Resources) (result : Except Failure Value) : State :=
  ⟨.halted result, resources⟩

/-- The end of a run by a failure. -/
def fail (resources : Resources) (fault : Fault) (location : Option Location) : State :=
  halt resources (.error ⟨fault, location⟩)

/-- The end of a run by a failure between two blocks, which is blamed on the caller unless an
instruction was to blame. -/
def abort (resources : Resources) (failure : Failure) (callers : List Caller) : State :=
  halt resources (.error (failure.locate (callers.head?.map Caller.location)))

/-- The result that the run has ended with. -/
def result? (s : State) : Option (Except Failure Value) :=
  match s.status with
  | .halted r => some r
  | .running _ _ => none

/-- Hands the result of a call to the one that waits for it. -/
def deliver (resources : Resources) (v : Value) : List Caller → State
  | [] => halt resources (.ok v)
  | a :: callers =>
    match a.resume v with
    | .error failure => halt resources (.error failure)
    | .ok top => ⟨.running top callers, resources⟩

end State

end SsaMachine
