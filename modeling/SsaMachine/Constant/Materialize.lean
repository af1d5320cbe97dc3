import SsaMachine.Fault
import SsaMachine.Decimal.Reading

set_option autoImplicit false

/-! # From constants to values

`Constant.materialize` makes the value that a constant stands for, and `Constant.read` makes a
constant from its text. Integers wrap around at the width of the type. A number without a
fractional part may be written as a floating-point literal at an integer type; it is taken as
an integer literal first, so it is brought into the range of integer literals before it wraps.
An integer at the string type is the one-character string of that code point.

The two report a constant that they cannot handle in different words: what cannot be read is
reported with the type as it was declared, what cannot be materialized with the default of
that type.
-/

namespace SsaMachine

namespace Text

/-- The character with the given code point, or the replacement character when there is none. -/
def characterOf (n : Int) : Char :=
  if 0 ≤ n ∧ n.toNat.isValidChar then Char.ofNat n.toNat else '\ufffd'

end Text

namespace Literal

/-- The integer literal that a floating-point literal without a fractional part amounts to. -/
def integerOfFloat? (x : Float) : Option Int :=
  ((BinaryFormat.double.decode x.toBits.toNat).integer?).map saturate

end Literal

namespace Constant

/-- The value of a constant. -/
def materialize (c : Constant) : Except Fault Value :=
  match c.literal, c.ty.defaulted with
  | .bool b, .bool => .ok (.bool b)
  | .int n, .int t => .ok (.int (Word.ofInt t n))
  | .int n, .float t => .ok (.float (t.ofFloat (Float.ofInt n)))
  | .int n, .string => .ok (.string (String.singleton (Text.characterOf n)))
  | .float x, .float t => .ok (.float (t.ofFloat x))
  | .float x, .int t =>
    match Literal.integerOfFloat? x with
    | some n => .ok (.int (Word.ofInt t n))
    | none => .error (.unsupportedConstant c.literal c.ty.defaulted)
  | .string s, .string => .ok (.string s)
  | .nil, .pointer _ => .ok (.address .null)
  | _, _ => .error (.unsupportedConstant c.literal c.ty.defaulted)

/-- The truth value with the given text. -/
def readBool? (s : String) : Option Bool :=
  if s == "true" then some true
  else if s == "false" then some false
  else none

/-- The integer literal with the given text. -/
def readInt? (s : String) : Option Int :=
  (Decimal.readInt? s.toList).filter fun n => Literal.leastInt ≤ n && n ≤ Literal.greatestInt

/-- The literal that a text stands for at a type. -/
def readLiteral? (ty : Ty) (s : String) : Option Literal :=
  match ty.defaulted with
  | .bool => (readBool? s).map .bool
  | .int _ => (readInt? s).map .int
  | .float _ => (Decimal.readFloat? s.toList).map .float
  | .string => some (.string s)
  | .pointer _ => if s == "nil" then some .nil else none
  | .complex _ | .untyped _ => none

/-- The constant that a text stands for at a type. -/
def read (ty : Ty) (s : String) : Except Fault Constant :=
  match readLiteral? ty s with
  | some literal => .ok ⟨ty, literal⟩
  | none => .error (.unreadableConstant s ty)

end Constant

end SsaMachine
