set_option autoImplicit false

/-! # Numbers of program parts

The parts of a program refer to each other by number: a part is known by its position among
the parts of its sort. The numbers are plain natural numbers, and nothing ensures that a part
with a given number exists.
-/

namespace SsaMachine

/-- Blocks are numbered within their function. -/
abbrev BlockId := Nat

/-- The values that a function defines are numbered within it, the parameters first. -/
abbrev ValueId := Nat

/-- Functions are numbered within their program. -/
abbrev FunctionId := Nat

/-- Global variables are numbered within their program. -/
abbrev GlobalId := Nat

/-- The text of a block number. -/
def BlockId.text (b : BlockId) : String :=
  "b" ++ toString b

/-- The text of a value number. -/
def ValueId.text (v : ValueId) : String :=
  "%" ++ toString v

end SsaMachine
