import SsaMachine.Memory.Cells

set_option autoImplicit false

/-! # Applying operators

Both operands of a binary operator must be of one kind, and the kind decides which operators
apply: all of them to words; arithmetic without remainder and the comparisons to floating-point
numbers; concatenation and the comparisons to strings; only equality to truth values and
addresses; none to units. Which of two faults is reported follows from that order: first that
the kinds differ, then that a divisor is zero or the operator does not apply.

Strings are compared by their code points.
-/

namespace SsaMachine

namespace BinaryOp

/-- The operator applied to two words of type `t`. -/
def onWords (t : IntType) (a b : BitVec t.bits) : BinaryOp → Except Fault Value
  | add => .ok (.int ⟨t, a + b⟩)
  | sub => .ok (.int ⟨t, a - b⟩)
  | mul => .ok (.int ⟨t, a * b⟩)
  | quo => if b = 0 then .error .divisionByZero else .ok (.int ⟨t, t.quotient a b⟩)
  | rem => if b = 0 then .error .divisionByZero else .ok (.int ⟨t, t.remainder a b⟩)
  | and => .ok (.int ⟨t, a &&& b⟩)
  | or => .ok (.int ⟨t, a ||| b⟩)
  | xor => .ok (.int ⟨t, a ^^^ b⟩)
  | andNot => .ok (.int ⟨t, a &&& ~~~b⟩)
  | compare c => .ok (.bool (c.test (Word.valueOf t a) (Word.valueOf t b)))

/-- The operator applied to two floating-point numbers of one type, where it applies. -/
def onFloats? {α : Type} [Add α] [Sub α] [Mul α] [Div α]
    [BEq α] [LT α] [DecidableLT α] [LE α] [DecidableLE α]
    (wrap : α → FloatNum) (x y : α) : BinaryOp → Option Value
  | add => some (.float (wrap (x + y)))
  | sub => some (.float (wrap (x - y)))
  | mul => some (.float (wrap (x * y)))
  | quo => some (.float (wrap (x / y)))
  | compare c => some (.bool (c.test x y))
  | _ => none

/-- The operator applied to two strings, where it applies. -/
def onStrings? (s t : String) : BinaryOp → Option Value
  | add => some (.string (s ++ t))
  | compare c => some (.bool (c.test s t))
  | _ => none

/-- The operator applied to two things that can only be equal or different, where it applies. -/
def onEquality? {α : Type} [BEq α] (x y : α) : BinaryOp → Option Value
  | compare c => (c.testEquality? x y).map .bool
  | _ => none

/-- The operator applied to two values. -/
def eval (op : BinaryOp) (l r : Value) : Except Fault Value :=
  let orInvalid (result : Option Value) : Except Fault Value :=
    match result with
    | some v => .ok v
    | none => .error (.invalidBinary op l.kind)
  match l, r with
  | .int ⟨t, a⟩, .int ⟨u, b⟩ =>
    if h : u = t then op.onWords t a (h ▸ b)
    else .error (.typeMismatch (.binary op) (.int t) (.int u))
  | .float (.single x), .float (.single y) => orInvalid (op.onFloats? .single x y)
  | .float (.double x), .float (.double y) => orInvalid (op.onFloats? .double x y)
  | .string s, .string t => orInvalid (op.onStrings? s t)
  | .bool a, .bool b => orInvalid (op.onEquality? a b)
  | .address a, .address b => orInvalid (op.onEquality? a b)
  | l, r => .error (.typeMismatch (.binary op) l.kind r.kind)

end BinaryOp

namespace UnaryOp

/-- The operator applied to a value; loading reads from the given memory. -/
def eval (op : UnaryOp) (m : Memory) (v : Value) : Except Fault Value :=
  match op, v with
  | load, .address a => m.read a
  | not, .bool b => .ok (.bool !b)
  | neg, .int w => .ok (.int w.neg)
  | neg, .float x => .ok (.float x.neg)
  | complement, .int w => .ok (.int w.complement)
  | op, v => .error (.invalidUnary op v.kind)

end UnaryOp

end SsaMachine
