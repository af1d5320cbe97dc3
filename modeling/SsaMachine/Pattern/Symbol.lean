import SsaMachine.Pattern.Basic
import SsaMachine.Text.Blank

set_option autoImplicit false

/-! # Reading symbols of a pattern

The smallest parts of a pattern: a character that stands for itself or for a class or place of its
own, perhaps as an escape. In a verbose pattern blanks may stand before each part, and comments,
from a number sign to the end of the line.
-/

namespace SsaMachine.Pattern

/-! ## Blanks and comments -/

/-- The text after blanks and comments; `comment` tells whether it starts inside a comment. -/
def dropBlanks (comment : Bool) : List Char → List Char
  | [] => []
  | c :: cs =>
    if comment then dropBlanks (c != '\n') cs
    else if Text.isBlank c then dropBlanks false cs
    else if c == '#' then dropBlanks true cs
    else c :: cs

/-- The text where the next part of a pattern starts. -/
def skip (verbose : Bool) (cs : List Char) : List Char :=
  if verbose then dropBlanks false cs else cs

/-- The next character that is neither a blank nor the first number sign: what it sees of a comment
is the start of its text. -/
def glimpse? (comment : Bool) : List Char → Option Char
  | [] => none
  | c :: cs =>
    if Text.isBlank c then glimpse? comment cs
    else if !comment && c == '#' then glimpse? true cs
    else some c

/-- The character that seems to come next. -/
def peek? (verbose : Bool) (cs : List Char) : Option Char :=
  if verbose then glimpse? false cs else cs.head?

/-! ## Escapes -/

/-- The value of a hexadecimal digit. -/
def hexDigit? (c : Char) : Option Nat :=
  if c.isDigit then some (c.toNat - '0'.toNat)
  else if 'a' ≤ c && c ≤ 'f' then some (c.toNat - 'a'.toNat + 10)
  else if 'A' ≤ c && c ≤ 'F' then some (c.toNat - 'A'.toNat + 10)
  else none

/-- Reads `n` hexadecimal digits, with `value` read before. -/
def readHex? (verbose : Bool) (value : Nat) : Nat → List Char → Option (Nat × List Char)
  | 0, cs => some (value, cs)
  | n + 1, cs =>
    match cs with
    | [] => none
    | c :: cs =>
      match hexDigit? c with
      | none => none
      | some d => readHex? verbose (16 * value + d) n (skip verbose cs)

/-- Reads a character by its code point, written with `n` digits. -/
def readCodePoint? (verbose : Bool) (n : Nat) (cs : List Char) : Option (Pattern × List Char) :=
  match readHex? verbose 0 n (skip verbose cs) with
  | none => none
  | some (value, rest) =>
    if value < 0xd800 || (0xdfff < value && value < 0x110000) then
      some (.literal ⟨Char.ofNat value, n == 2⟩, rest)
    else none

/-- The control characters that have an escape of one letter. -/
def controlLetter? (c : Char) : Option Char :=
  [('a', '\x07'), ('f', '\x0c'), ('t', '\t'), ('n', '\n'), ('r', '\r'), ('v', '\x0b')].lookup c

/-- Reads what follows a backslash. There are no escapes for what a group has matched, and none
for the properties of characters. -/
def readEscape? (verbose : Bool) : List Char → Option (Pattern × List Char)
  | [] => none
  | c :: cs =>
    if c == 'x' then readCodePoint? verbose 2 cs
    else if c == 'u' then readCodePoint? verbose 4 cs
    else if c == 'U' then readCodePoint? verbose 8 cs
    else if c == 'd' || c == 's' || c == 'w' then some (.shorthand false, cs)
    else if c == 'D' || c == 'S' || c == 'W' then some (.shorthand true, cs)
    else if c == 'A' || c == 'z' then some (.anchor, cs)
    else if c == 'b' || c == 'B' || c == '<' || c == '>' then some (.wordBoundary, cs)
    else if c.toNat < 0x80 && !c.isAlphanum then some (.literal ⟨c, false⟩, cs)
    else (controlLetter? c).map fun d => (.literal ⟨d, false⟩, cs)

/-- Reads a symbol that starts with `c`. -/
def readSymbol? (verbose : Bool) (c : Char) (cs : List Char) : Option (Pattern × List Char) :=
  if c == '\\' then readEscape? verbose cs
  else if c == '.' then some (.dot, cs)
  else if c == '^' || c == '$' then some (.anchor, cs)
  else some (.literal ⟨c, false⟩, cs)

end SsaMachine.Pattern
