import SsaMachine.Text.Unprintable
import SsaMachine.Text.Extender

set_option autoImplicit false

/-! # Quoted text

A diagnostic shows a text between double quotes, so that its ends and every character in it
can be seen. Quotes, backslashes and the usual controls get short escapes; any other character
that would not show, or would merge with its neighbour, is written as its code point in
hexadecimal. Everything else stands for itself, the single quote included.
-/

namespace SsaMachine.Text

/-- The code point of a character, written as an escape. -/
def codePointEscape (c : Char) : List Char :=
  "\\u\x7b".toList ++ Nat.toDigits 16 c.toNat ++ ['\x7d']

/-- How a character is written inside quotes. -/
def escape (c : Char) : List Char :=
  if c == '\x00' then ['\\', '0']
  else if c == '\t' then ['\\', 't']
  else if c == '\r' then ['\\', 'r']
  else if c == '\n' then ['\\', 'n']
  else if c == '"' then ['\\', '"']
  else if c == '\\' then ['\\', '\\']
  else if isExtender c || isUnprintable c then codePointEscape c
  else [c]

/-- The text between double quotes, with every character that needs it escaped. -/
def quote (s : String) : String :=
  String.ofList ('"' :: s.toList.flatMap escape ++ ['"'])

end SsaMachine.Text
