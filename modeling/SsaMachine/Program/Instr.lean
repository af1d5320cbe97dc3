import SsaMachine.Constant.Basic
import SsaMachine.Fault

set_option autoImplicit false

/-! # Instructions

An instruction performs an operation and may give its result a number, which later
instructions of the same function use as an operand. Each operation has three views that the
rest of the library reads it through: the operands it uses, the blocks it may transfer control
to, and whether it ends its block.

A phi selects one of several operands by the block that control came from.
-/

namespace SsaMachine

/-- What an instruction may use: a value of the same function, a constant, or the address of a
global variable. -/
inductive Operand where
  | value (id : ValueId)
  | constant (c : Constant)
  | global (id : GlobalId)

/-- What a call may call: a function of the program, or a host function by its name. -/
inductive Callee where
  | function (id : FunctionId)
  | builtin (name : String)
  deriving DecidableEq, Repr

/-- The operand that a phi takes when control came from the block `pred`. -/
structure PhiEdge where
  pred : BlockId
  operand : Operand

/-- The operations. A conversion can be written down but not executed. -/
inductive Operation where
  | store (addr value : Operand)
  | unary (op : UnaryOp) (x : Operand)
  | binary (op : BinaryOp) (x y : Operand)
  | call (callee : Callee) (args : List Operand)
  | convert (ty : Ty) (x : Operand)
  | phi (edges : List PhiEdge)
  | ret (results : List Operand)
  | branch (cond : Operand) (onTrue onFalse : BlockId)
  | jump (target : BlockId)

/-- An operation and the number of the value it defines, if any. -/
structure Instr where
  dest : Option ValueId
  op : Operation

namespace Operand

/-- A truth value as an operand. -/
def bool (b : Bool) : Operand :=
  .constant ⟨.bool, .bool b⟩

/-- An integer as an operand. -/
def int (t : IntType) (n : Int) : Operand :=
  .constant ⟨.int t, .int n⟩

/-- A floating-point number as an operand. -/
def float (t : FloatType) (x : Float) : Operand :=
  .constant ⟨.float t, .float x⟩

/-- A string as an operand. -/
def string (s : String) : Operand :=
  .constant ⟨.string, .string s⟩

end Operand

namespace Operation

/-- Whether the operation ends its block. -/
def isTerminator : Operation → Bool
  | ret _ | branch _ _ _ | jump _ => true
  | _ => false

/-- Whether the operation is a phi. -/
def isPhi : Operation → Bool
  | phi _ => true
  | _ => false

/-- The blocks that the operation may transfer control to. -/
def targets : Operation → List BlockId
  | branch _ onTrue onFalse => [onTrue, onFalse]
  | jump target => [target]
  | _ => []

/-- The operands that the operation uses, in the order in which they are written. -/
def operands : Operation → List Operand
  | store addr value => [addr, value]
  | unary _ x => [x]
  | binary _ x y => [x, y]
  | call _ args => args
  | convert _ x => [x]
  | phi edges => edges.map PhiEdge.operand
  | ret results => results
  | branch cond _ _ => [cond]
  | jump _ => []

/-- The word that names the operation. -/
def mnemonic : Operation → String
  | store _ _ => "store"
  | unary _ _ => "unop"
  | binary _ _ _ => "binop"
  | call _ _ => "call"
  | convert _ _ => "convert"
  | phi _ => "phi"
  | ret _ => "return"
  | branch _ _ _ => "if"
  | jump _ => "jump"

/-- Only a terminator transfers control. -/
theorem targets_eq_nil_of_not_isTerminator {op : Operation} (h : op.isTerminator = false) :
    op.targets = [] := by
  cases op <;> simp_all [isTerminator, targets]

end Operation

end SsaMachine
