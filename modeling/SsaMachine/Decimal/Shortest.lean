import SsaMachine.Decimal.Binary

set_option autoImplicit false

/-! # The shortest decimal numeral of a floating-point number

A decimal numeral reads back as a given floating-point number exactly when it lies between
the midpoints to the number's two neighbours, the midpoints themselves included when the
mantissa is even. Among the numerals that read back, the shortest one is chosen: for one
digit, then two, and so on, the two neighbours of the number on the grid of that many digits
are tried, and the first grid with a hit decides. When both neighbours read back the nearer
one is taken, and the upper one when they are equally near.

All quantities are compared as fractions over one denominator, so the arithmetic is exact.
-/

namespace SsaMachine

/-- The numeral `digits * 10 ^ exponent`, where `digits` stands for a number with one digit
before the point. The digits are not empty and do not end in a zero unless there is just one. -/
structure Numeral where
  digits : List Char
  exponent : Int
  deriving DecidableEq, Repr

namespace Decimal

/-- The decimal digits of a natural number, the most significant one first. -/
def digitsOf (n : Nat) : List Char :=
  Nat.toDigits 10 n

/-- The digits without the zeros at their end. -/
def dropTrailingZeros (ds : List Char) : List Char :=
  (ds.reverse.dropWhile (· == '0')).reverse

/-- The decimal exponent of the fraction `num / den`: the greatest `k` for which `10 ^ k` does
not exceed it. Both numbers are positive. -/
def magnitude (num den : Nat) : Int :=
  if den ≤ num then
    ((digitsOf (num / den)).length : Int) - 1
  else
    -((digitsOf ((den - 1) / num)).length : Int)

/-- The numerator of `10 ^ exponent`. -/
def up (exponent : Int) : Nat :=
  if 0 ≤ exponent then Nat.pow 10 exponent.toNat else 1

/-- The denominator of `10 ^ exponent`. -/
def down (exponent : Int) : Nat :=
  if 0 ≤ exponent then 1 else Nat.pow 10 exponent.natAbs

/-- The numbers that round to one floating-point number, as fractions `_ / den`. -/
structure RoundingInterval where
  lower : Nat
  value : Nat
  upper : Nat
  den : Nat
  closed : Bool

namespace RoundingInterval

/-- The interval around `mantissa * 2 ^ exponent`. Below a power of two the neighbour is only
half as far away, except at the end of the range, where the spacing does not change. -/
def around (f : BinaryFormat) (mantissa : Nat) (exponent : Int) : RoundingInterval :=
  let atPower := mantissa = Nat.pow 2 f.fractionBits ∧ f.leastExponent < exponent
  let below := if atPower then 1 else 2
  let scale := exponent - 2
  let num := if 0 ≤ scale then Nat.pow 2 scale.toNat else 1
  let den := if 0 ≤ scale then 1 else Nat.pow 2 scale.natAbs
  { lower := (4 * mantissa - below) * num
    value := 4 * mantissa * num
    upper := (4 * mantissa + 2) * num
    den := den
    closed := mantissa % 2 = 0 }

/-- Whether the fraction `num / den'` rounds to the number. -/
def contains (r : RoundingInterval) (num den' : Nat) : Bool :=
  let x := num * r.den
  if r.closed then
    decide (r.lower * den' ≤ x) && decide (x ≤ r.upper * den')
  else
    decide (r.lower * den' < x) && decide (x < r.upper * den')

/-- The greatest multiple of `10 ^ exponent` that does not exceed the number. -/
def floorOnGrid (r : RoundingInterval) (exponent : Int) : Nat :=
  r.value * down exponent / (r.den * up exponent)

/-- The multiple of `10 ^ exponent` that rounds to the number and is nearest to it. -/
def onGrid? (r : RoundingInterval) (exponent : Int) : Option Nat :=
  let c := r.floorOnGrid exponent
  let low := r.contains (c * up exponent) (down exponent)
  let high := r.contains ((c + 1) * up exponent) (down exponent)
  if low && high then
    if 2 * r.value * down exponent < (2 * c + 1) * up exponent * r.den then some c
    else some (c + 1)
  else if low then some c
  else if high then some (c + 1)
  else none

/-- Tries the multiples of `10 ^ k`, then those of the next smaller powers of ten, `fuel` powers in
all, and takes what does not exceed the number on the grid after the last. -/
def search (r : RoundingInterval) : (fuel : Nat) → (k : Int) → Nat × Int
  | 0, k => (r.floorOnGrid k, k)
  | fuel + 1, k =>
    match r.onGrid? k with
    | some c => (c, k)
    | none => search r fuel (k - 1)

end RoundingInterval

/-- The digits that always suffice to tell the numbers of a format apart. -/
def enoughDigits (f : BinaryFormat) : Nat :=
  f.fractionBits / 3 + 3

/-- The shortest numeral that reads back as `mantissa * 2 ^ exponent`. -/
def shortest (f : BinaryFormat) (mantissa : Nat) (exponent : Int) : Numeral :=
  if mantissa = 0 then ⟨['0'], 0⟩
  else
    let r := RoundingInterval.around f mantissa exponent
    let (c, e) := r.search (enoughDigits f) (magnitude r.value r.den)
    let ds := digitsOf c
    ⟨dropTrailingZeros ds, e + (ds.length - 1 : Nat)⟩

end Decimal

end SsaMachine
