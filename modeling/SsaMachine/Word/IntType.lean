set_option autoImplicit false

/-! # Integer types

The eleven integer types a program can declare. Each has a width in bits and is signed or
unsigned; `int`, `uint` and `uintptr` are 64 bits wide but are types of their own, so a
value of type `int` is not a value of type `int64`. A type is therefore not just the pair
of its width and signedness, and equality of types is equality of the constructors.
-/

namespace SsaMachine

/-- The integer types. -/
inductive IntType where
  | int8
  | int16
  | int32
  | int64
  | int
  | uint8
  | uint16
  | uint32
  | uint64
  | uint
  | uintptr
  deriving DecidableEq, Repr

namespace IntType

/-- All integer types, in declaration order. -/
def all : List IntType :=
  [int8, int16, int32, int64, int, uint8, uint16, uint32, uint64, uint, uintptr]

/-- The width in bits. -/
def bits : IntType → Nat
  | int8 | uint8 => 8
  | int16 | uint16 => 16
  | int32 | uint32 => 32
  | int64 | int | uint64 | uint | uintptr => 64

/-- Whether the bits are read in two's complement. -/
def signed : IntType → Bool
  | int8 | int16 | int32 | int64 | int => true
  | uint8 | uint16 | uint32 | uint64 | uint | uintptr => false

/-- The name a program text uses for the type. -/
def name : IntType → String
  | int8 => "int8"
  | int16 => "int16"
  | int32 => "int32"
  | int64 => "int64"
  | int => "int"
  | uint8 => "uint8"
  | uint16 => "uint16"
  | uint32 => "uint32"
  | uint64 => "uint64"
  | uint => "uint"
  | uintptr => "uintptr"

/-- The integer type with the given name. -/
def ofName? (s : String) : Option IntType :=
  all.find? (·.name == s)

/-- The least integer of the type. -/
def least (t : IntType) : Int :=
  if t.signed then -(Nat.pow 2 (t.bits - 1) : Nat) else 0

/-- The greatest integer of the type. -/
def greatest (t : IntType) : Int :=
  if t.signed then (Nat.pow 2 (t.bits - 1) : Nat) - 1 else (Nat.pow 2 t.bits : Nat) - 1

/-- The integers that the type can represent. -/
def InRange (t : IntType) (n : Int) : Prop :=
  t.least ≤ n ∧ n ≤ t.greatest

instance (t : IntType) (n : Int) : Decidable (t.InRange n) :=
  inferInstanceAs (Decidable (_ ∧ _))

theorem mem_all (t : IntType) : t ∈ all := by
  cases t <;> decide

theorem bits_pos (t : IntType) : 0 < t.bits := by
  cases t <;> decide

end IntType

end SsaMachine
