set_option autoImplicit false

/-! # Binary floating-point formats

A floating-point number is stored as a sign bit, a biased exponent and a fraction. Decoding
turns such a pattern into the exact number `± mantissa * 2 ^ exponent`, an infinity or "not a
number". Everything that this library says about the decimal text or the integer value of a
floating-point number is computed from that exact form, in integer arithmetic.
-/

namespace SsaMachine

/-- The layout of a binary floating-point format: the sizes of its two fields. -/
structure BinaryFormat where
  fractionBits : Nat
  exponentBits : Nat
  deriving DecidableEq, Repr

/-- What a stored pattern stands for. -/
inductive Decoded where
  | nan
  | infinite (negative : Bool)
  | finite (negative : Bool) (mantissa : Nat) (exponent : Int)
  deriving DecidableEq, Repr

namespace BinaryFormat

/-- The 64-bit format. -/
def double : BinaryFormat := ⟨52, 11⟩

/-- The 32-bit format. -/
def single : BinaryFormat := ⟨23, 8⟩

/-- The exponent of the last place of the subnormal numbers, and of the least normal ones. -/
def leastExponent (f : BinaryFormat) : Int :=
  2 - (Nat.pow 2 (f.exponentBits - 1) : Nat) - f.fractionBits

/-- The exact meaning of a stored pattern. An exponent field of zero marks the subnormal
numbers, which have no implicit leading bit; a field of ones marks what is not finite. -/
def decode (f : BinaryFormat) (pattern : Nat) : Decoded :=
  let fraction := pattern % Nat.pow 2 f.fractionBits
  let field := pattern / Nat.pow 2 f.fractionBits % Nat.pow 2 f.exponentBits
  let negative := pattern / Nat.pow 2 (f.fractionBits + f.exponentBits) % 2 == 1
  if field = Nat.pow 2 f.exponentBits - 1 then
    if fraction = 0 then .infinite negative else .nan
  else if field = 0 then
    .finite negative fraction f.leastExponent
  else
    .finite negative (fraction + Nat.pow 2 f.fractionBits) (f.leastExponent + (field - 1 : Nat))

end BinaryFormat

namespace Decoded

/-- The integer that a finite number without a fractional part is equal to. -/
def integer? : Decoded → Option Int
  | .finite negative mantissa exponent =>
    let scale := Nat.pow 2 exponent.natAbs
    let magnitude? :=
      if 0 ≤ exponent then some (mantissa * scale)
      else if mantissa % scale = 0 then some (mantissa / scale)
      else none
    magnitude?.map fun n => if negative then -(n : Int) else n
  | _ => none

end Decoded

end SsaMachine
