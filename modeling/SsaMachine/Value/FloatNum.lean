import SsaMachine.Decimal.Layout

set_option autoImplicit false

/-! # Floating-point values

A floating-point value has one of two types, and the operations on it are those of that
type's binary format. The two formats never mix: an operation takes two numbers of one type
and is not defined otherwise.
-/

namespace SsaMachine

/-- The floating-point types. -/
inductive FloatType where
  | float32
  | float64
  deriving DecidableEq, Repr

/-- A floating-point value. -/
inductive FloatNum where
  | single (x : Float32)
  | double (x : Float)

namespace FloatType

/-- The name a program text uses for the type. -/
def name : FloatType → String
  | float32 => "float32"
  | float64 => "float64"

/-- The name of the type of complex numbers whose parts have this type. -/
def complexName : FloatType → String
  | float32 => "complex64"
  | float64 => "complex128"

/-- The value of this type that is nearest to a 64-bit number. -/
def ofFloat : FloatType → Float → FloatNum
  | float32, x => .single x.toFloat32
  | float64, x => .double x

end FloatType

namespace FloatNum

/-- The type of a floating-point value. -/
def ty : FloatNum → FloatType
  | single _ => .float32
  | double _ => .float64

/-- Equality of numbers: the two zeros are equal and a NaN is not equal to itself. -/
def equal : FloatNum → FloatNum → Bool
  | single x, single y => x == y
  | double x, double y => x == y
  | _, _ => false

instance : BEq FloatNum := ⟨equal⟩

/-- The number with its sign flipped. -/
def neg : FloatNum → FloatNum
  | single x => single (-x)
  | double x => double (-x)

/-- The text of the number in a given layout. -/
def render (l : FloatLayout) : FloatNum → String
  | single x => l.render .single x.toBits.toNat
  | double x => l.render .double x.toBits.toNat

end FloatNum

@[simp] theorem FloatType.ty_ofFloat (t : FloatType) (x : Float) : (t.ofFloat x).ty = t := by
  cases t <;> rfl

end SsaMachine
