set_option autoImplicit false

/-! # Options of a pattern

A pattern can switch options on and off, each by a letter: `(?i-u)` switches the letters before the
dash on and those behind it off, until the end of the group in which it stands. Seven letters are
known; three of them bear on whether a pattern can be used, and `Options` keeps these.
-/

namespace SsaMachine.Pattern

/-- The options in force at a place in a pattern. -/
structure Options where
  /-- Upper and lower case are not told apart. -/
  caseless : Bool
  /-- The pattern speaks of characters, not of bytes. -/
  unicode : Bool
  /-- Blanks and comments in the pattern are passed over. -/
  verbose : Bool
  deriving DecidableEq, Repr

namespace Options

/-- The options with which a pattern starts. -/
def standard : Options := ⟨false, true, false⟩

/-- What the letters say about one letter: on, off, or nothing. -/
def state? (letters : List Char) (letter : Char) : Option Bool :=
  if letters.contains letter then some !((letters.takeWhile (· != letter)).contains '-')
  else none

/-- The options after a change. -/
def change (o : Options) (letters : List Char) : Options :=
  ⟨(state? letters 'i').getD o.caseless, (state? letters 'u').getD o.unicode,
    (state? letters 'x').getD o.verbose⟩

/-- Whether the characters can stand for a change of options: known letters and a dash, none of
them twice, and not the dash at the end. -/
def areLetters (letters : List Char) : Bool :=
  letters.all "imsUuRx-".toList.contains && letters.eraseDups == letters &&
    letters.getLast? != some '-'

end Options

end SsaMachine.Pattern
