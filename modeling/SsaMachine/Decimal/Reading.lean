set_option autoImplicit false

/-! # Reading decimal numbers

The number texts a constant may be written as. An integer is an optional sign and one or more
digits. A floating-point number is an optional sign and either a numeral (digits with an
optional point, at least one digit in all, and an optional exponent) or one of the words
`inf`, `infinity` and `nan` in any case. No blanks, no separators, and only the digits
`0` to `9`.

A numeral is read exactly, as `coefficient * 10 ^ exponent`, and rounded once.
-/

namespace SsaMachine.Decimal

/-- The value of a digit character. -/
def digitValue (c : Char) : Nat :=
  c.toNat - '0'.toNat

/-- The number that a list of digits stands for in base ten. -/
def valueOfDigits (ds : List Char) : Nat :=
  ds.foldl (fun n c => 10 * n + digitValue c) 0

/-- A natural number: one or more digits. -/
def readNat? (cs : List Char) : Option Nat :=
  if cs.isEmpty || !cs.all Char.isDigit then none else some (valueOfDigits cs)

/-- Splits off an optional sign, and tells whether it is a minus. -/
def readSign : List Char → Bool × List Char
  | '-' :: cs => (true, cs)
  | '+' :: cs => (false, cs)
  | cs => (false, cs)

/-- An integer: an optional sign and a natural number. -/
def readInt? (cs : List Char) : Option Int :=
  let (negative, ds) := readSign cs
  (readNat? ds).map fun n => if negative then -(n : Int) else n

/-- The exponent part of a numeral, which may be missing. -/
def readExponent? : List Char → Option Int
  | [] => some 0
  | c :: cs => if c == 'e' || c == 'E' then readInt? cs else none

/-- An unsigned numeral, as a coefficient and a power of ten. -/
def readNumeral? (cs : List Char) : Option (Nat × Int) :=
  let whole := cs.takeWhile Char.isDigit
  let rest := cs.dropWhile Char.isDigit
  let (fraction, rest) :=
    match rest with
    | '.' :: r => (r.takeWhile Char.isDigit, r.dropWhile Char.isDigit)
    | r => ([], r)
  if whole.isEmpty && fraction.isEmpty then none
  else
    (readExponent? rest).map fun e => (valueOfDigits (whole ++ fraction), e - fraction.length)

/-- Positive infinity. -/
def infinity : Float :=
  Float.ofBits 0x7ff0000000000000

/-- A number that is not a number. -/
def notANumber : Float :=
  Float.ofBits 0x7ff8000000000000

/-- The floating-point number nearest to `coefficient * 10 ^ exponent`. Beyond 310 digits before
the point every number is out of range, and with 330 zeros after the point every number is
nearer to zero than to anything else, so that no large power of ten is ever computed. -/
def nearest (coefficient : Nat) (exponent : Int) : Float :=
  let magnitude := (Nat.toDigits 10 coefficient).length + exponent
  if coefficient = 0 || magnitude < -330 then 0
  else if 310 < magnitude then infinity
  else Float.ofScientific coefficient (exponent < 0) exponent.natAbs

/-- An unsigned floating-point number. -/
def readMagnitude? (cs : List Char) : Option Float :=
  let word := String.ofList (cs.map Char.toLower)
  if word == "inf" || word == "infinity" then some infinity
  else if word == "nan" then some notANumber
  else (readNumeral? cs).map fun (c, e) => nearest c e

/-- A floating-point number. -/
def readFloat? (cs : List Char) : Option Float :=
  let (negative, rest) := readSign cs
  (readMagnitude? rest).map fun x => if negative then -x else x

end SsaMachine.Decimal
