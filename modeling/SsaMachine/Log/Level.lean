import SsaMachine.Decimal.Reading

set_option autoImplicit false

/-! # Levels of the log

How much is recorded, from nothing to every step. A level is written as a word, in letters of any
case, or as its number, from zero for nothing to five.
-/

namespace SsaMachine.Log

/-- A level of detail. -/
inductive Level where
  | off
  | error
  | warn
  | info
  | debug
  | trace
  deriving DecidableEq, Repr

namespace Level

/-- All levels, with the number of each as its place. -/
def all : List Level :=
  [off, error, warn, info, debug, trace]

/-- The word for a level. -/
def name : Level → String
  | off => "off"
  | error => "error"
  | warn => "warn"
  | info => "info"
  | debug => "debug"
  | trace => "trace"

/-- The number that a text writes, perhaps after a plus sign. -/
def readNumber? : List Char → Option Nat
  | '+' :: cs => Decimal.readNat? cs
  | cs => Decimal.readNat? cs

/-- The level that a text writes. -/
def ofText? (cs : List Char) : Option Level :=
  match readNumber? cs with
  | some n => all[n]?
  | none => all.find? fun l => l.name.toList == cs.map Char.toLower

end Level

end SsaMachine.Log
