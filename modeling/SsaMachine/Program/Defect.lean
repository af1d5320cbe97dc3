import SsaMachine.Program.Basic

set_option autoImplicit false

/-! # Defects

The ways in which a program can fail to be well formed. Each defect names the function it is
found in, unless it is one of the program as a whole.
-/

namespace SsaMachine

/-- What is wrong with a program. -/
inductive Defect where
  | undefined (function : String)
  | missingEntry (function : String) (entry : BlockId)
  | misnumbered (function : String) (index : Nat) (block : BlockId)
  | missingTerminator (function : String) (block : BlockId)
  | earlyTerminator (function : String) (block : BlockId) (index : Nat)
  | unknownBlock (function : String) (block target : BlockId)
  | edgeMismatch (function : String) (block : BlockId)
  | phiEdge (function : String) (block pred : BlockId)
  | redefined (function : String) (value : ValueId)
  | valueOutOfRange (function : String) (value : ValueId) (count : Nat)
  | unknownGlobal (function : String) (id : GlobalId)
  | unknownFunction (function : String) (callee : FunctionId)
  | arity (function callee : String) (expected got : Nat)
  | duplicateGlobal (name : String)
  | duplicateFunction (name : String)
  deriving DecidableEq, Repr

/-- What is reported for a defect. -/
def Defect.message : Defect → String
  | undefined f => "function `" ++ f ++ "` is declared but never defined"
  | missingEntry f entry => f ++ ": entry block " ++ BlockId.text entry ++ " does not exist"
  | misnumbered f index block =>
    f ++ ": block at index " ++ toString index ++ " is numbered " ++ BlockId.text block
  | missingTerminator f block =>
    f ++ ": block " ++ BlockId.text block ++ " does not end with a terminator"
  | earlyTerminator f block index =>
    f ++ ": block " ++ BlockId.text block ++ " has a terminator at position " ++ toString index
  | unknownBlock f block target =>
    f ++ ": block " ++ BlockId.text block ++ " targets unknown block " ++ BlockId.text target
  | edgeMismatch f block =>
    f ++ ": control-flow edges of block " ++ BlockId.text block ++
      " do not match its terminator"
  | phiEdge f block pred =>
    f ++ ": phi in block " ++ BlockId.text block ++ " has an edge from non-predecessor " ++
      BlockId.text pred
  | redefined f value => f ++ ": value " ++ ValueId.text value ++ " is defined more than once"
  | valueOutOfRange f value count =>
    f ++ ": value " ++ ValueId.text value ++ " is outside the function's " ++ toString count ++
      " values"
  | unknownGlobal f id => f ++ ": reference to unknown global #" ++ toString id
  | unknownFunction f callee => f ++ ": call to unknown function #" ++ toString callee
  | arity f callee expected got =>
    f ++ ": call to `" ++ callee ++ "` passes " ++ toString got ++ " arguments, expected " ++
      toString expected
  | duplicateGlobal name => "global `" ++ name ++ "` is declared more than once"
  | duplicateFunction name => "function `" ++ name ++ "` is declared more than once"

end SsaMachine
