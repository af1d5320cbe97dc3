import SsaMachine.Value.Basic

set_option autoImplicit false

/-! # Declared types

The types that a program declares for its globals, parameters and constants. A constant may be
untyped, in which case it takes the default type of its sort; the untyped nil has no default.
Complex types can be declared, but no value is of such a type.

A type `admits` the values that may occupy a place of that type. It constrains only the kind
of the value, so that every pointer type admits every address.
-/

namespace SsaMachine

/-- The sorts of untyped constants. -/
inductive Untyped where
  | bool
  | int
  | rune
  | float
  | string
  | nil
  deriving DecidableEq, Repr

/-- The declared types. -/
inductive Ty where
  | bool
  | int (t : IntType)
  | float (t : FloatType)
  | complex (part : FloatType)
  | string
  | pointer (target : Ty)
  | untyped (sort : Untyped)
  deriving DecidableEq, Repr

namespace Untyped

/-- All sorts of untyped constants. -/
def all : List Untyped :=
  [bool, int, rune, float, string, nil]

/-- The name of a sort of untyped constants. -/
def name : Untyped → String
  | bool => "untyped bool"
  | int => "untyped int"
  | rune => "untyped rune"
  | float => "untyped float"
  | string => "untyped string"
  | nil => "untyped nil"

end Untyped

namespace Ty

/-- The text of a type. -/
def text : Ty → String
  | bool => "bool"
  | int t => t.name
  | float t => t.name
  | complex part => part.complexName
  | string => "string"
  | pointer target => "*" ++ target.text
  | untyped sort => sort.name

/-- The types that are not pointers. -/
def atoms : List Ty :=
  [bool, string] ++ IntType.all.map int ++
    [float .float32, float .float64, complex .float32, complex .float64] ++
    Untyped.all.map untyped

/-- The type that a text stands for, given as a list of characters. -/
def readChars? : List Char → Option Ty
  | '*' :: cs => (readChars? cs).map pointer
  | cs => atoms.find? (·.text == String.ofList cs)

/-- The type that a text stands for. -/
def read? (s : String) : Option Ty :=
  readChars? s.toList

/-- The type that values of this declared type have: untyped sorts are resolved to their
default. The untyped nil has none and stays as it is. -/
def defaulted : Ty → Ty
  | untyped .bool => bool
  | untyped .int => int .int
  | untyped .rune => int .int32
  | untyped .float => float .float64
  | untyped .string => string
  | t => t

/-- The kind of the values of a type; complex types and the untyped nil have no values. -/
def kind? (t : Ty) : Option Kind :=
  match t.defaulted with
  | bool => some .bool
  | int i => some (.int i)
  | float f => some (.float f)
  | string => some .string
  | pointer _ => some .pointer
  | complex _ | untyped _ => none

/-- Whether a value may occupy a place of this type. -/
def admits (t : Ty) (v : Value) : Bool :=
  t.kind? == some v.kind

/-- The value that a place of this type holds before anything is stored in it. -/
def zero? (t : Ty) : Option Value :=
  match t.defaulted with
  | bool => some (.bool false)
  | int i => some (.int (Word.ofInt i 0))
  | float f => some (.float (f.ofFloat 0))
  | string => some (.string "")
  | pointer _ => some (.address .null)
  | complex _ | untyped _ => none

theorem admits_iff {t : Ty} {v : Value} : t.admits v = true ↔ t.kind? = some v.kind := by
  simp [admits]

end Ty

end SsaMachine
