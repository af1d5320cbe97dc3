import SsaMachine.Value.FloatNum
import SsaMachine.Word.Basic

set_option autoImplicit false

/-! # Values

What a running program computes with. A value is a truth value, a word, a floating-point
number, a string, an address, or the unit that a function without a result returns. There
are no conversions between these: each value has a `Kind`, and two values may meet in an
operation, or take each other's place in a cell, only when they are of one kind.

An address is null or names a cell by its number, so that two addresses are equal exactly
when they lead to the same cell. What an address points to is not part of its kind.
-/

namespace SsaMachine

/-- The null address, or the address of a cell. -/
inductive Address where
  | null
  | cell (id : Nat)
  deriving DecidableEq, Repr

namespace Address

/-- Whether the address is null. -/
def isNull : Address → Bool
  | null => true
  | cell _ => false

end Address

/-- The values of a running program. -/
inductive Value where
  | bool (b : Bool)
  | int (w : Word)
  | float (x : FloatNum)
  | string (s : String)
  | address (a : Address)
  | unit

/-- The kinds of values. -/
inductive Kind where
  | bool
  | int (t : IntType)
  | float (t : FloatType)
  | string
  | pointer
  | unit
  deriving DecidableEq, Repr

namespace Kind

/-- The name of a kind in diagnostics. -/
def name : Kind → String
  | bool => "bool"
  | int t => t.name
  | float t => t.name
  | string => "string"
  | pointer => "pointer"
  | unit => "()"

end Kind

namespace Value

/-- The kind of a value. -/
def kind : Value → Kind
  | bool _ => .bool
  | int w => .int w.ty
  | float x => .float x.ty
  | string _ => .string
  | address _ => .pointer
  | unit => .unit

/-- Whether two values are of one kind. -/
def sameKind (v w : Value) : Bool :=
  v.kind == w.kind

/-- The truth value that a value is. -/
def bool? : Value → Option Bool
  | bool b => some b
  | _ => none

/-- The word that a value is. -/
def int? : Value → Option Word
  | int w => some w
  | _ => none

/-- The address that a value is. -/
def address? : Value → Option Address
  | address a => some a
  | _ => none

/-- Whether the value is the unit. -/
def isUnit : Value → Bool
  | unit => true
  | _ => false

/-- Equality of values. Words are equal when their types and bits are, floating-point numbers
when they are numerically equal, addresses when they lead to the same cell. -/
def equal : Value → Value → Bool
  | bool a, bool b => a == b
  | int a, int b => a == b
  | float a, float b => a == b
  | string a, string b => a == b
  | address a, address b => a == b
  | unit, unit => true
  | _, _ => false

instance : BEq Value := ⟨equal⟩

instance : Inhabited Value := ⟨unit⟩

theorem sameKind_iff {v w : Value} : v.sameKind w = true ↔ v.kind = w.kind := by
  simp [sameKind]

end Value

end SsaMachine
