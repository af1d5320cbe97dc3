import SsaMachine.Value.Basic

set_option autoImplicit false

/-! # The text of values

The one text that a value has wherever a program prints it. A string stands for itself. Live
addresses are opaque to a program: their texts are pointers of the host, which are different from
run to run, and one text stands here for all of them.
-/

namespace SsaMachine

/-- Printed numbers: written out for decimal exponents from minus four to five, otherwise with
a signed exponent of two digits or more; infinities carry their sign. -/
def FloatLayout.printed : FloatLayout where
  positional e := decide (-4 ≤ e) && decide (e < 6)
  exponentDigits := 2
  positiveInfinity := "+Inf"
  negativeInfinity := "-Inf"
  notANumber := "NaN"

namespace FloatNum

/-- The text of a floating-point value. -/
def text (x : FloatNum) : String :=
  x.render .printed

end FloatNum

namespace Address

/-- The text of an address. A host prints the pointer to a cell, a number after `0x` that tells
cells apart; `<addr>` stands in for that number, whatever the cell. -/
def text : Address → String
  | null => "<nil>"
  | cell _ => "<addr>"

end Address

namespace Value

/-- The text of a value. -/
def text : Value → String
  | bool b => if b then "true" else "false"
  | int w => w.text
  | float x => x.text
  | string s => s
  | address a => a.text
  | unit => "()"

/-- The texts of some values, with a separator between them. -/
def joinTexts (separator : String) (vs : List Value) : String :=
  separator.intercalate (vs.map text)

end Value

end SsaMachine
