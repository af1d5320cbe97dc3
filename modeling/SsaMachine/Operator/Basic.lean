set_option autoImplicit false

/-! # Operators

The operators a program applies to its values, with the symbols that stand for them. The six
comparisons are one group: they apply to whatever is ordered, and they always yield a truth
value, while every other binary operator yields a value of the kind of its operands.
-/

namespace SsaMachine

/-- The comparisons. -/
inductive Comparison where
  | eq
  | ne
  | lt
  | le
  | gt
  | ge
  deriving DecidableEq, Repr

/-- The operators with one operand. `load` reads through an address. -/
inductive UnaryOp where
  | not
  | neg
  | complement
  | load
  deriving DecidableEq, Repr

/-- The operators with two operands. `andNot` clears the bits that its right operand has. -/
inductive BinaryOp where
  | add
  | sub
  | mul
  | quo
  | rem
  | and
  | or
  | xor
  | andNot
  | compare (c : Comparison)
  deriving DecidableEq, Repr

namespace Comparison

/-- All comparisons. -/
def all : List Comparison :=
  [eq, ne, lt, le, gt, ge]

/-- The symbol of a comparison. -/
def symbol : Comparison → String
  | eq => "=="
  | ne => "!="
  | lt => "<"
  | le => "<="
  | gt => ">"
  | ge => ">="

/-- Whether the comparison holds between two things of one ordered type. -/
def test {α : Type} [BEq α] [LT α] [DecidableLT α] [LE α] [DecidableLE α]
    (c : Comparison) (x y : α) : Bool :=
  match c with
  | eq => x == y
  | ne => x != y
  | lt => decide (x < y)
  | le => decide (x ≤ y)
  | gt => decide (y < x)
  | ge => decide (y ≤ x)

/-- Whether the comparison holds between two things that can only be equal or different; the
four orderings do not apply to them. -/
def testEquality? {α : Type} [BEq α] (c : Comparison) (x y : α) : Option Bool :=
  match c with
  | eq => some (x == y)
  | ne => some (x != y)
  | _ => none

end Comparison

namespace UnaryOp

/-- All operators with one operand. -/
def all : List UnaryOp :=
  [not, neg, complement, load]

/-- The symbol of an operator with one operand. -/
def symbol : UnaryOp → String
  | not => "!"
  | neg => "-"
  | complement => "^"
  | load => "*"

/-- The operator with the given symbol. -/
def ofSymbol? (s : String) : Option UnaryOp :=
  all.find? (·.symbol == s)

end UnaryOp

namespace BinaryOp

/-- All operators with two operands. -/
def all : List BinaryOp :=
  [add, sub, mul, quo, rem, and, or, xor, andNot] ++ Comparison.all.map compare

/-- The symbol of an operator with two operands. -/
def symbol : BinaryOp → String
  | add => "+"
  | sub => "-"
  | mul => "*"
  | quo => "/"
  | rem => "%"
  | and => "&"
  | or => "|"
  | xor => "^"
  | andNot => "&^"
  | compare c => c.symbol

/-- The operator with the given symbol. -/
def ofSymbol? (s : String) : Option BinaryOp :=
  all.find? (·.symbol == s)

end BinaryOp

end SsaMachine
