import SsaMachine.Machine.Phi
import SsaMachine.Operator.Eval

set_option autoImplicit false

/-! # Executing an instruction

What one instruction does within its own call: it changes the frame or the memory and control
proceeds to the next instruction, or it transfers control to another block, returns, or asks
for a call. Calls are not carried out here, because they concern the whole chain of calls.

The operands of an instruction are evaluated from left to right, and the first fault counts.
-/

namespace SsaMachine

/-- What executing an instruction leads to. -/
inductive Effect where
  | proceed (frame : Frame) (memory : Memory)
  | goto (target : BlockId)
  | exit (result : Value)
  | call (callee : Callee) (args : List Value)

namespace Context

/-- The result of a return: none is the unit, and there can be at most one. -/
def evalResult (c : Context) (f : Frame) : List Operand → Except Fault Value
  | [] => .ok .unit
  | [x] => c.eval f x
  | xs => .error (.multipleResults xs.length)

/-- Executes one instruction in a frame. -/
def execute (c : Context) (f : Frame) (m : Memory) (i : Instr) : Except Fault Effect :=
  match i.op with
  | .store addr value => do
    let a ← c.evalAddress f addr
    let v ← c.eval f value
    let m ← m.write a v
    return .proceed f m
  | .unary op x => do
    let v ← c.eval f x
    let r ← op.eval m v
    let f ← f.define i.dest r
    return .proceed f m
  | .binary op x y => do
    let l ← c.eval f x
    let r ← c.eval f y
    let v ← op.eval l r
    let f ← f.define i.dest v
    return .proceed f m
  | .call callee args => do
    let vs ← c.evalAll f args
    return .call callee vs
  | .convert ty _ => .error (.unsupportedConversion ty)
  | .phi edges => do
    let v ← c.selectEdge f edges
    let f ← f.define i.dest v
    return .proceed f m
  | .ret results => do
    let v ← c.evalResult f results
    return .exit v
  | .branch cond onTrue onFalse => do
    let b ← c.evalCondition f cond
    return .goto (if b then onTrue else onFalse)
  | .jump target => .ok (.goto target)

end Context

end SsaMachine
