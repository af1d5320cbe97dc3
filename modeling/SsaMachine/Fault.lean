import SsaMachine.Constant.Basic
import SsaMachine.Id
import SsaMachine.Operator.Basic

set_option autoImplicit false

/-! # Faults

Why an execution stops without a result. A `Fault` is the cause alone; a `Failure` is a fault
together with the instruction that is to blame, once that is known. A fault ends the whole
chain of calls, and the location closest to it is the one that is kept.
-/

namespace SsaMachine

/-- The constructs that expect operands of particular kinds. -/
inductive Construct where
  | store
  | branch
  | binary (op : BinaryOp)
  deriving DecidableEq, Repr

/-- The name of a construct in diagnostics. -/
def Construct.name : Construct → String
  | store => "store"
  | branch => "if"
  | binary op => op.symbol

/-- The causes of failure. -/
inductive Fault where
  | nilDereference
  | typeMismatch (construct : Construct) (left right : Kind)
  | divisionByZero
  | unboundValue (id : ValueId)
  | unknownGlobal (name : String)
  | unknownBuiltin (name : String)
  | noPhiEdge (previous : Option BlockId)
  | arity (function : String) (expected got : Nat)
  | argumentType (function param : String) (expected : Ty) (got : Kind)
  | multipleResults (count : Nat)
  | unsupportedConstant (literal : Literal) (ty : Ty)
  | unreadableConstant (text : String) (ty : Ty)
  | noZeroValue (ty : Ty)
  | invalidUnary (op : UnaryOp) (operand : Kind)
  | invalidBinary (op : BinaryOp) (operand : Kind)
  | unknownFunction (id : FunctionId)
  | unknownBlock (id : BlockId)
  | missingTerminator (id : BlockId)
  | unsupportedConversion (ty : Ty)
  | native (name message : String)
  | output (message : String)

/-- What is reported for a fault. -/
def Fault.message : Fault → String
  | nilDereference => "nil pointer dereference"
  | typeMismatch construct left right =>
    "type mismatch in " ++ construct.name ++ ": " ++ left.name ++ " and " ++ right.name
  | divisionByZero => "integer division by zero"
  | unboundValue id => "no value bound for " ++ ValueId.text id
  | unknownGlobal name => "unknown global `" ++ name ++ "`"
  | unknownBuiltin name => "unknown builtin `" ++ name ++ "`"
  | noPhiEdge previous =>
    "no phi edge for predecessor " ++ (previous.map BlockId.text).getD "<entry>"
  | arity function expected got =>
    "function `" ++ function ++ "` expects " ++ toString expected ++ " arguments, got " ++
      toString got
  | argumentType function param expected got =>
    "argument `" ++ param ++ "` of `" ++ function ++ "` expects " ++ expected.text ++ ", got " ++
      got.name
  | multipleResults count =>
    "multi-value return is not supported (" ++ toString count ++ " results)"
  | unsupportedConstant literal ty =>
    "unsupported constant: " ++ literal.text ++ " as " ++ ty.text
  | unreadableConstant text ty =>
    "unsupported constant: " ++ Text.quote text ++ " as " ++ ty.text
  | noZeroValue ty => "type `" ++ ty.text ++ "` has no zero value"
  | invalidUnary op operand =>
    "invalid unary operation " ++ op.symbol ++ " on " ++ operand.name
  | invalidBinary op operand =>
    "invalid binary operation " ++ op.symbol ++ " on " ++ operand.name
  | unknownFunction id => "unknown function #" ++ toString id
  | unknownBlock id => "unknown block " ++ BlockId.text id
  | missingTerminator id => "block " ++ BlockId.text id ++ " ends without a terminator"
  | unsupportedConversion ty => "unsupported instruction: conversion to " ++ ty.text
  | native name message => "native `" ++ name ++ "` failed: " ++ message
  | output message => "output error: " ++ message

/-- The place of an instruction. -/
structure Location where
  function : String
  block : BlockId
  index : Nat
  deriving DecidableEq, Repr

/-- The text of a place. -/
def Location.text (l : Location) : String :=
  l.function ++ ":" ++ BlockId.text l.block ++ "[" ++ toString l.index ++ "]"

/-- A fault and the instruction to blame for it, when that is known. -/
structure Failure where
  fault : Fault
  location : Option Location := none

/-- What is reported for a failure. -/
def Failure.message (f : Failure) : String :=
  match f.location with
  | some l => f.fault.message ++ " (at " ++ l.text ++ ")"
  | none => f.fault.message

/-- The failure with a location, unless it has one already. -/
def Failure.locate (f : Failure) (l : Option Location) : Failure :=
  { f with location := f.location <|> l }

end SsaMachine
