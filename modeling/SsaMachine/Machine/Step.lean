import SsaMachine.Machine.Execute
import SsaMachine.Machine.State

set_option autoImplicit false

/-! # Steps of the machine

A step executes the phis at the head of a block, or one instruction, or hands the result of a
returned call to the waiting one. `Context.step` is a total function, so a run is determined by
its first state, and `Context.run` repeats it as often as it is told to.

A call of a native is one step, since the native answers at once; a call of a function with a body
puts an activation on the stack, and ends with the step that hands over its result.
-/

namespace SsaMachine

namespace Context

/-- Makes the call that `caller` waits for. -/
def invoke (c : Context) (resources : Resources) (callee : Callee) (args : List Value)
    (caller : Caller) (callers : List Caller) : State :=
  match c.program.target callee with
  | .error fault => .fail resources fault caller.location
  | .ok (.native name) =>
    match resources.callNative name args with
    | (.error fault, resources) => .fail resources fault caller.location
    | (.ok v, resources) => .deliver resources v (caller :: callers)
  | .ok (.body f) =>
    match Activation.enter f args with
    | .error fault => .fail resources fault caller.location
    | .ok top => ⟨.running top (caller :: callers), resources⟩

/-- Executes the instruction at `index` of a block. -/
def stepInstr (c : Context) (resources : Resources) (function : Function) (frame : Frame)
    (block : BlockId) (index : Nat) (i : Instr) (callers : List Caller) : State :=
  match c.execute frame resources.memory i with
  | .error fault => .fail resources fault (some ⟨function.name, block, index⟩)
  | .ok (.proceed frame memory) =>
    ⟨.running ⟨function, frame, .instr (index + 1)⟩ callers, { resources with memory := memory }⟩
  | .ok (.goto target) =>
    ⟨.running ⟨function, frame.transfer target, .head⟩ callers, resources⟩
  | .ok (.exit v) =>
    ⟨.running ⟨function, frame.finish v, .head⟩ callers, resources⟩
  | .ok (.call callee args) =>
    c.invoke resources callee args ⟨function, frame, block, index, i.dest⟩ callers

/-- One step of the machine. A run that has ended stays as it is. -/
def step (c : Context) (s : State) : State :=
  match s with
  | ⟨.halted _, _⟩ => s
  | ⟨.running ⟨function, frame, point⟩ callers, resources⟩ =>
    match frame.block with
    | none => .deliver resources frame.result callers
    | some id =>
      match function.block? id with
      | none => .abort resources ⟨.unknownBlock id, none⟩ callers
      | some block =>
        match point with
        | .head =>
          match c.resolvePhis function frame block with
          | .error failure => .abort resources failure callers
          | .ok (frame, count) =>
            ⟨.running ⟨function, frame, .instr count⟩ callers, resources⟩
        | .instr index =>
          match block.instrs[index]? with
          | none => .fail resources (.missingTerminator id) (some ⟨function.name, id, index⟩)
          | some i => c.stepInstr resources function frame id index i callers

/-- The state in which the host has called `callee`. -/
def start (c : Context) (resources : Resources) (callee : Callee) (args : List Value) : State :=
  match c.program.target callee with
  | .error fault => .fail resources fault none
  | .ok (.native name) =>
    match resources.callNative name args with
    | (.error fault, resources) => .fail resources fault none
    | (.ok v, resources) => .halt resources (.ok v)
  | .ok (.body f) =>
    match Activation.enter f args with
    | .error fault => .fail resources fault none
    | .ok top => ⟨.running top [], resources⟩

/-- At most `fuel` steps, ending early when the run has ended. -/
def run (c : Context) : (fuel : Nat) → State → State
  | 0, s => s
  | fuel + 1, s =>
    match s with
    | ⟨.halted _, _⟩ => s
    | ⟨.running top callers, resources⟩ => run c fuel (c.step ⟨.running top callers, resources⟩)

end Context

end SsaMachine
