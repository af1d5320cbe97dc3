import SsaMachine.Program.Basic

set_option autoImplicit false

/-! # Drafts of function bodies

A function body is drafted one instruction at a time. Instructions go to the end of the current
block, and the values they define are numbered in the order in which they are drafted, starting
after the parameters. The current block can be any number: while there is no such block, drafted
instructions are lost, but their value numbers stay used. A phi can be given further edges after
it was drafted, since the blocks it takes values from may not have been drafted yet.

Drafting never records control-flow edges. They are derived once, from the last instructions of
the blocks, when the body is finished.
-/

namespace SsaMachine

/-- A function body being drafted. -/
structure BodyDraft where
  id : FunctionId
  name : String
  params : List Param
  blocks : List (List Instr)
  current : BlockId
  nextValue : ValueId

/-- Applies a function to the first element that satisfies a condition. -/
def modifyFirst {α : Type} (c : α → Bool) (f : α → α) : List α → List α
  | [] => []
  | x :: xs => if c x then f x :: xs else x :: modifyFirst c f xs

/-- The instruction with one more edge, if it is a phi. -/
def Instr.addEdge (i : Instr) (e : PhiEdge) : Instr :=
  match i.op with
  | .phi edges => { i with op := .phi (edges ++ [e]) }
  | _ => i

namespace BodyDraft

/-- The draft of a body without instructions: it has one block, the entry. -/
def start (id : FunctionId) (name : String) (params : List Param) : BodyDraft where
  id := id
  name := name
  params := params
  blocks := [[]]
  current := 0
  nextValue := params.length

/-- The number of the entry block. -/
def entry (_ : BodyDraft) : BlockId := 0

/-- The value number of a parameter, given its position. -/
def param (_ : BodyDraft) (index : Nat) : ValueId := index

/-- Appends an empty block and gives its number. The current block stays the same. -/
def newBlock : StateM BodyDraft BlockId := fun d =>
  (d.blocks.length, { d with blocks := d.blocks ++ [[]] })

/-- Makes a block the current one. -/
def switchTo (b : BlockId) : StateM BodyDraft Unit := fun d =>
  ((), { d with current := b })

/-- Appends an instruction to the current block, if there is such a block. -/
def push (d : BodyDraft) (i : Instr) : BodyDraft :=
  { d with blocks := d.blocks.modify d.current (· ++ [i]) }

/-- Drafts an instruction that defines no value. -/
def perform (op : Operation) : StateM BodyDraft Unit := fun d =>
  ((), d.push ⟨none, op⟩)

/-- Drafts an instruction that defines the next value, and gives its number. -/
def define (op : Operation) : StateM BodyDraft ValueId := fun d =>
  (d.nextValue, { d.push ⟨some d.nextValue, op⟩ with nextValue := d.nextValue + 1 })

/-- Drafts a store. -/
def store (addr value : Operand) : StateM BodyDraft Unit :=
  perform (.store addr value)

/-- Drafts a unary operation. -/
def unary (op : UnaryOp) (x : Operand) : StateM BodyDraft ValueId :=
  define (.unary op x)

/-- Drafts a binary operation. -/
def binary (op : BinaryOp) (x y : Operand) : StateM BodyDraft ValueId :=
  define (.binary op x y)

/-- Drafts a call. -/
def call (callee : Callee) (args : List Operand) : StateM BodyDraft ValueId :=
  define (.call callee args)

/-- Drafts a conversion. -/
def convert (ty : Ty) (x : Operand) : StateM BodyDraft ValueId :=
  define (.convert ty x)

/-- Drafts a phi. -/
def phi (edges : List PhiEdge) : StateM BodyDraft ValueId :=
  define (.phi edges)

/-- Drafts a return. -/
def ret (results : List Operand) : StateM BodyDraft Unit :=
  perform (.ret results)

/-- Drafts a conditional branch. -/
def branch (cond : Operand) (onTrue onFalse : BlockId) : StateM BodyDraft Unit :=
  perform (.branch cond onTrue onFalse)

/-- Drafts a jump. -/
def jump (target : BlockId) : StateM BodyDraft Unit :=
  perform (.jump target)

/-- Gives the phi that defines a value one more edge, after those it has. -/
def addPhiEdge (v : ValueId) (e : PhiEdge) : StateM BodyDraft Unit := fun d =>
  let defines (i : Instr) : Bool := i.dest == some v
  let extend (block : List Instr) : List Instr := modifyFirst defines (·.addEdge e) block
  ((), { d with blocks := modifyFirst (·.any defines) extend d.blocks })

/-- The blocks that a drafted block leads to. -/
def targetsOf (instrs : List Instr) : List BlockId :=
  (instrs.getLast?.map fun i => i.op.targets).getD []

/-- The blocks that lead to the block `b`, in order, each as often as it does. -/
def predsOf (blocks : List (List Instr)) (b : BlockId) : List BlockId :=
  blocks.zipIdx.flatMap fun (instrs, i) => ((targetsOf instrs).filter (· == b)).map fun _ => i

/-- The function that the draft amounts to. -/
def finish (d : BodyDraft) : Function where
  name := d.name
  params := d.params
  blocks := d.blocks.zipIdx.map fun (instrs, i) =>
    { id := i, instrs := instrs, preds := predsOf d.blocks i, succs := targetsOf instrs }
  entry := 0
  valueCount := d.nextValue

end BodyDraft

end SsaMachine
