import SsaMachine.Ty
import SsaMachine.Text.Quoted

set_option autoImplicit false

/-! # Constants

A constant is a literal together with the type it is declared at. The literal says what was
written; only the type decides which value it becomes, and not every literal becomes a value at
every type.
-/

namespace SsaMachine

/-- What a constant is written as. -/
inductive Literal where
  | bool (b : Bool)
  | int (n : Int)
  | float (x : Float)
  | string (s : String)
  | nil
  | complex (re im : Float)

/-- A literal at a declared type. -/
structure Constant where
  ty : Ty
  literal : Literal

/-- Numbers in literals: always written out in full. -/
def FloatLayout.literal : FloatLayout where
  positional _ := true
  exponentDigits := 1
  positiveInfinity := "inf"
  negativeInfinity := "-inf"
  notANumber := "NaN"

namespace Literal

/-- The text of a floating-point number in a literal. -/
def floatText (x : Float) : String :=
  FloatLayout.literal.render .double x.toBits.toNat

/-- The text of a literal. -/
def text : Literal → String
  | bool b => if b then "true" else "false"
  | int n => toString n
  | float x => floatText x
  | string s => Text.quote s
  | nil => "nil"
  | complex re im => "(" ++ floatText re ++ "+" ++ floatText im ++ "i)"

/-- The least integer that a literal can hold. -/
def leastInt : Int :=
  -(Nat.pow 2 127 : Nat)

/-- The greatest integer that a literal can hold. -/
def greatestInt : Int :=
  (Nat.pow 2 127 : Nat) - 1

/-- The integer nearest to `n` that a literal can hold. -/
def saturate (n : Int) : Int :=
  max leastInt (min n greatestInt)

end Literal

end SsaMachine
