import SsaMachine.Decimal.Shortest

set_option autoImplicit false

/-! # Layouts of floating-point text

How a numeral is laid out is a matter of the place where it is shown. A `FloatLayout` records
the decisions: which decimal exponents are written out positionally, how many digits an
exponent has at least, and how the infinities are spelled. The digits themselves are always
those of `Decimal.shortest`.
-/

namespace SsaMachine

/-- The decisions that turn a floating-point number into text. -/
structure FloatLayout where
  /-- The decimal exponents that are written without an exponent part. -/
  positional : Int → Bool
  /-- The least number of digits of an exponent. -/
  exponentDigits : Nat
  positiveInfinity : String
  negativeInfinity : String
  notANumber : String

namespace Numeral

/-- The numeral written without an exponent. -/
def positional (n : Numeral) : List Char :=
  if 0 ≤ n.exponent then
    let whole := n.exponent.toNat + 1
    let zeros := List.replicate (whole - n.digits.length) '0'
    let fraction := n.digits.drop whole
    n.digits.take whole ++ zeros ++ if fraction.isEmpty then [] else '.' :: fraction
  else
    '0' :: '.' :: List.replicate (n.exponent.natAbs - 1) '0' ++ n.digits

/-- The numeral written with one digit before the point and a signed exponent of at least
`width` digits. -/
def scientific (n : Numeral) (width : Nat) : List Char :=
  let mantissa :=
    match n.digits with
    | [] => []
    | d :: [] => [d]
    | d :: ds => d :: '.' :: ds
  let exponent := Decimal.digitsOf n.exponent.natAbs
  let zeros := List.replicate (width - exponent.length) '0'
  mantissa ++ 'e' :: (if n.exponent < 0 then '-' else '+') :: zeros ++ exponent

end Numeral

namespace FloatLayout

/-- The text of a numeral. -/
def numeral (l : FloatLayout) (n : Numeral) : List Char :=
  if l.positional n.exponent then n.positional else n.scientific l.exponentDigits

/-- The text of a stored pattern of the format `f`. -/
def render (l : FloatLayout) (f : BinaryFormat) (pattern : Nat) : String :=
  match f.decode pattern with
  | .nan => l.notANumber
  | .infinite negative => if negative then l.negativeInfinity else l.positiveInfinity
  | .finite negative mantissa exponent =>
    let text := l.numeral (Decimal.shortest f mantissa exponent)
    String.ofList (if negative then '-' :: text else text)

end FloatLayout

end SsaMachine
