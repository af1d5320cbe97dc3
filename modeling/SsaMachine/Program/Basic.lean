import SsaMachine.Program.Instr

set_option autoImplicit false

/-! # Programs

A program is a list of global variables and a list of functions. A function with blocks is
executed block by block from its entry; a function without blocks is a declaration that the
host implements. Blocks refer to each other by number, and besides its instructions a block
records the blocks that it leads to and the blocks that lead to it.

Nothing here is checked: any data of these types is a program, and `Program.verify` says which
of them are well formed.
-/

namespace SsaMachine

/-- A parameter of a function. -/
structure Param where
  name : String
  ty : Ty
  deriving DecidableEq, Repr

/-- A global variable. Its type is that of the stored value; as an operand, a global stands for
its address. -/
structure Global where
  name : String
  ty : Ty
  deriving DecidableEq, Repr

/-- A basic block. -/
structure Block where
  id : BlockId
  instrs : List Instr
  preds : List BlockId
  succs : List BlockId

/-- A function. `valueCount` is the number of values it defines, its parameters included. -/
structure Function where
  name : String
  params : List Param
  blocks : List Block
  entry : BlockId
  valueCount : Nat

/-- A program. -/
structure Program where
  globals : List Global
  functions : List Function

namespace Block

/-- The blocks that the last instruction may transfer control to. -/
def targets (b : Block) : List BlockId :=
  (b.instrs.getLast?.map fun i => i.op.targets).getD []

/-- The phis at the head of the block. -/
def headPhis (b : Block) : List Instr :=
  b.instrs.takeWhile fun i => i.op.isPhi

end Block

namespace Function

/-- Whether the function has no body and is implemented by the host. -/
def isExternal (f : Function) : Bool :=
  f.blocks.isEmpty

/-- The block with the given number. -/
def block? (f : Function) (id : BlockId) : Option Block :=
  f.blocks[id]?

/-- The value number of a parameter, given its position. -/
def paramValue (_ : Function) (index : Nat) : ValueId :=
  index

end Function

namespace Program

/-- The function with the given number. -/
def function? (p : Program) (id : FunctionId) : Option Function :=
  p.functions[id]?

/-- The global variable with the given number. -/
def global? (p : Program) (id : GlobalId) : Option Global :=
  p.globals[id]?

/-- The number of the function with the given name; of several, that of the last one. -/
def functionId? (p : Program) (name : String) : Option FunctionId :=
  (p.functions.zipIdx.reverse.find? fun f => f.1.name == name).map Prod.snd

end Program

end SsaMachine
