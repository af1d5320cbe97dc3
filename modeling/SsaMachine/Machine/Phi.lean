import SsaMachine.Machine.Operand

set_option autoImplicit false

/-! # Phis

A phi takes the operand of the edge from the block that was executed before. The phis at the
head of a block are one parallel copy: all their operands are read before any of them is bound,
so they may refer to each other.

When reading fails, the phi that was read is to blame. Binding can fail only in a malformed
function, and then no instruction of the block is blamed.
-/

namespace SsaMachine

namespace Context

/-- The value that a phi with these edges takes. -/
def selectEdge (c : Context) (f : Frame) (edges : List PhiEdge) : Except Fault Value :=
  match edges.find? fun e => some e.pred == f.previous with
  | some e => c.eval f e.operand
  | none => .error (.noPhiEdge f.previous)

/-- Reads the phis at the head of a list of instructions, the first of which stands at `index` in
the block `block` of the function `name`. -/
def readPhis (c : Context) (f : Frame) (name : String) (block : BlockId) :
    (index : Nat) → List Instr → Except Failure (List (Option ValueId × Value))
  | _, [] => .ok []
  | index, i :: rest =>
    match i.op with
    | .phi edges =>
      match c.selectEdge f edges with
      | .error fault => .error ⟨fault, some ⟨name, block, index⟩⟩
      | .ok v => (readPhis c f name block (index + 1) rest).map ((i.dest, v) :: ·)
    | _ => .ok []

end Context

namespace Frame

/-- Binds several results, in order. -/
def defineAll (f : Frame) : List (Option ValueId × Value) → Except Fault Frame
  | [] => .ok f
  | (dest, v) :: rest =>
    match f.define dest v with
    | .error fault => .error fault
    | .ok f => f.defineAll rest

end Frame

namespace Context

/-- Executes the phis at the head of a block as one group, and gives their number. -/
def resolvePhis (c : Context) (function : Function) (f : Frame) (b : Block) :
    Except Failure (Frame × Nat) :=
  match c.readPhis f function.name b.id 0 b.instrs with
  | .error failure => .error failure
  | .ok values =>
    match f.defineAll values with
    | .error fault => .error ⟨fault, none⟩
    | .ok f => .ok (f, values.length)

end Context

end SsaMachine
