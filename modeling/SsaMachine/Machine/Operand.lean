import SsaMachine.Constant.Materialize
import SsaMachine.Machine.Frame
import SsaMachine.Memory.Globals

set_option autoImplicit false

/-! # Evaluating operands

An operand is a value of the frame, a constant, or a global variable, which stands for its
address. What stays the same during a run, the program and the cells of its global variables,
is its `Context`.
-/

namespace SsaMachine

/-- What stays the same during a run. -/
structure Context where
  program : Program
  globals : Globals

namespace Context

/-- The address of a global variable, given its number. -/
def globalAddress (c : Context) (id : GlobalId) : Except Fault Address :=
  match c.program.global? id with
  | some g => c.globals.address g.name
  | none => .error (.unknownGlobal ("#" ++ toString id))

/-- The value of an operand. -/
def eval (c : Context) (f : Frame) : Operand → Except Fault Value
  | .value id => f.lookup id
  | .constant k => k.materialize
  | .global id => (c.globalAddress id).map .address

/-- The values of some operands, evaluated in order. -/
def evalAll (c : Context) (f : Frame) : List Operand → Except Fault (List Value)
  | [] => .ok []
  | x :: xs => do
    let v ← c.eval f x
    let vs ← c.evalAll f xs
    return v :: vs

/-- The address that an operand evaluates to. -/
def evalAddress (c : Context) (f : Frame) (x : Operand) : Except Fault Address := do
  match ← c.eval f x with
  | .address a => return a
  | v => throw (.typeMismatch .store .pointer v.kind)

/-- The truth value that an operand evaluates to. -/
def evalCondition (c : Context) (f : Frame) (x : Operand) : Except Fault Bool := do
  match ← c.eval f x with
  | .bool b => return b
  | v => throw (.typeMismatch .branch .bool v.kind)

end Context

end SsaMachine
