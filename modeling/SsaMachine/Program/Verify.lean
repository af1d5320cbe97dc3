import SsaMachine.Program.Defect

set_option autoImplicit false

/-! # Verification

`Program.defect?` looks for a defect and reports the first one in a fixed order: names that
are declared twice, then function by function the entry block, the shape of each block, the
control-flow edges of each block, and last the values that the instructions define and use.
Functions without a body have nothing to check.

Each check is a function that yields a defect or `none`, and they are put together by taking
the first defect of a list; so a program has no defect exactly when no single check finds one.
-/

namespace SsaMachine

/-- The first name of a list that also stands before in it or in `seen`. -/
def firstRepeated? (seen : List String) : List String → Option String
  | [] => none
  | n :: ns => if seen.contains n then some n else firstRepeated? (n :: seen) ns

namespace Function

/-- The entry must be a block. -/
def entryDefect? (f : Function) : Option Defect :=
  if (f.block? f.entry).isNone then some (.missingEntry f.name f.entry) else none

/-- The block at position `index` must carry that number, and its last instruction, and no
other, must be a terminator. -/
def blockDefect? (f : Function) (b : Block) (index : Nat) : Option Defect :=
  if b.id ≠ index then some (.misnumbered f.name index b.id)
  else if (b.instrs.getLast?.any fun i => i.op.isTerminator) = false then
    some (.missingTerminator f.name b.id)
  else
    (b.instrs.dropLast.findIdx? fun i => i.op.isTerminator).map (.earlyTerminator f.name b.id)

/-- Whether control can pass from the block `a` to the block `b`, as `a` records it. -/
def leadsTo (f : Function) (a b : BlockId) : Bool :=
  (f.block? a).any fun block => block.succs.contains b

/-- Whether control can come to the block `b` from the block `a`, as `b` records it. -/
def comesFrom (f : Function) (b a : BlockId) : Bool :=
  (f.block? b).any fun block => block.preds.contains a

/-- The targets of the terminator must be blocks and must be the recorded successors, and the
recorded edges of neighbouring blocks must agree with each other. -/
def edgeDefect? (f : Function) (b : Block) : Option Defect :=
  ((b.targets.find? fun t => (f.block? t).isNone).map (.unknownBlock f.name b.id))
  <|> if b.targets = b.succs ∧ b.preds.all (f.leadsTo · b.id) ∧ b.succs.all (f.comesFrom · b.id)
      then none
      else some (.edgeMismatch f.name b.id)

/-- The instructions of all blocks, in order, each with its block. -/
def instrs (f : Function) : List (Block × Instr) :=
  f.blocks.flatMap fun b => b.instrs.map fun i => (b, i)

/-- The parameters must be among the values. -/
def paramDefect? (f : Function) : Option Defect :=
  if f.valueCount < f.params.length then
    some (.valueOutOfRange f.name (f.params.length - 1) f.valueCount)
  else none

/-- The value that an instruction defines must be one of the function's and a new one. -/
def destDefect? (f : Function) (defined : List ValueId) : Option ValueId → Option Defect
  | none => none
  | some v =>
    if f.valueCount ≤ v then some (.valueOutOfRange f.name v f.valueCount)
    else if defined.contains v then some (.redefined f.name v)
    else none

end Function

namespace Program

/-- An operand must be one of the function's values or one of the program's globals. -/
def operandDefect? (p : Program) (f : Function) : Operand → Option Defect
  | .value v =>
    if f.valueCount ≤ v then some (.valueOutOfRange f.name v f.valueCount) else none
  | .global g => if (p.global? g).isNone then some (.unknownGlobal f.name g) else none
  | .constant _ => none

/-- A call must name a function and, when that has a body, pass as many arguments as it has
parameters. -/
def callDefect? (p : Program) (f : Function) (id : FunctionId) (args : Nat) : Option Defect :=
  match p.function? id with
  | none => some (.unknownFunction f.name id)
  | some callee =>
    if !callee.isExternal && callee.params.length != args then
      some (.arity f.name callee.name callee.params.length args)
    else none

/-- The edges of a phi must come from predecessors of its block, and calls must be in order. -/
def operationDefect? (p : Program) (f : Function) (b : Block) : Operation → Option Defect
  | .phi edges =>
    (edges.find? fun e => !b.preds.contains e.pred).map fun e => .phiEdge f.name b.id e.pred
  | .call (.function id) args => p.callDefect? f id args.length
  | _ => none

/-- Checks instructions in order, `defined` being the values defined before them. -/
def instrsDefect? (p : Program) (f : Function) (defined : List ValueId) :
    List (Block × Instr) → Option Defect
  | [] => none
  | (b, i) :: rest =>
    f.destDefect? defined i.dest
    <|> i.op.operands.findSome? (p.operandDefect? f)
    <|> p.operationDefect? f b i.op
    <|> p.instrsDefect? f (i.dest.toList ++ defined) rest

/-- Checks a function with a body. -/
def functionDefect? (p : Program) (f : Function) : Option Defect :=
  f.entryDefect?
  <|> f.blocks.zipIdx.findSome? (fun b => f.blockDefect? b.1 b.2)
  <|> f.blocks.findSome? f.edgeDefect?
  <|> f.paramDefect?
  <|> p.instrsDefect? f (List.range f.params.length) f.instrs

/-- The first defect of a program. -/
def defect? (p : Program) : Option Defect :=
  (firstRepeated? [] (p.globals.map Global.name)).map .duplicateGlobal
  <|> (firstRepeated? [] (p.functions.map Function.name)).map .duplicateFunction
  <|> (p.functions.filter fun f => !f.isExternal).findSome? p.functionDefect?

/-- Accepts a program without defects, and reports the first defect of any other. -/
def verify (p : Program) : Except Defect Unit :=
  match p.defect? with
  | none => .ok ()
  | some d => .error d

end Program

end SsaMachine
