set_option autoImplicit false

/-! # Control sequences

A text can hold sequences that a terminal obeys instead of showing them: an escape character with
what belongs to it, up to the character that completes the sequence. `plain` is what remains of a
text when these sequences are left out, and with them all control characters but the four that
lay out lines (`isLayout`).

A sequence that breaks off is left out as far as it goes. An escape character starts a new
sequence wherever it stands, and the characters cancel and substitute end one at any point.
Inside a short sequence a layout character is kept and suspends the sequence: the text after it
is kept as well, until another control character resumes the sequence or a character beyond ASCII
abandons it.
-/

namespace SsaMachine.Text

/-! ## Characters -/

/-- The control characters that lay out lines: tab, line feed, form feed, carriage return. -/
def isLayout (c : Char) : Bool :=
  c == '\t' || c == '\n' || c == '\x0c' || c == '\r'

/-- Whether the character may stand in a plain text: it is no control character of ASCII, or it
lays out lines. -/
def isPlain (c : Char) : Bool :=
  isLayout c || (' ' ≤ c && c != '\x7f')

/-- Whether the character ends a control string: the byte of the string terminator is one of the
bytes of its encoding. -/
def endsString (c : Char) : Bool :=
  (String.utf8EncodeChar c).contains 0x9c

/-! ## Sequences -/

/-- What kind of sequence is being read, and how far. -/
inductive Sequence where
  /-- The escape character has been read. -/
  | escape
  /-- An escape with intermediate characters, which its next character completes. -/
  | designation
  /-- A control function, with its parameters up to a final letter. -/
  | function
  /-- A device control string, up to its parameters. -/
  | device
  /-- A device control string, in its parameters. -/
  | deviceParameters
  /-- A device control string, after its parameters. -/
  | deviceIntermediates
  /-- The text of a control string, up to the string terminator. -/
  | string
  /-- A command to the system, up to a bell. -/
  | command
  deriving DecidableEq, Repr

namespace Sequence

/-- Whether a layout character inside the sequence is kept. -/
def keepsLayout : Sequence → Bool
  | escape | designation | function => true
  | device | deviceParameters | deviceIntermediates | string | command => false

/-- How the sequence goes on with the next character; `none` if that character completes it. -/
def next (s : Sequence) (c : Char) : Option Sequence :=
  match s with
  | escape =>
    if ' ' ≤ c && c ≤ '/' then some designation
    else if c == '[' then some function
    else if c == 'P' then some device
    else if c == ']' then some command
    else if c == 'X' || c == '^' || c == '_' then some string
    else if '0' ≤ c && c ≤ '~' then none
    else some escape
  | designation => if '0' ≤ c && c ≤ '~' then none else some designation
  | function => if '@' ≤ c && c ≤ '~' then none else some function
  | device =>
    if ' ' ≤ c && c ≤ '/' then some deviceIntermediates
    else if '0' ≤ c && c ≤ '?' then some deviceParameters
    else if '@' ≤ c && c ≤ '~' then some string
    else some device
  | deviceParameters =>
    if ' ' ≤ c && c ≤ '/' then some deviceIntermediates
    else if '<' ≤ c && c ≤ '~' then some string
    else some deviceParameters
  | deviceIntermediates =>
    if '0' ≤ c && c ≤ '~' then some string else some deviceIntermediates
  | string => if endsString c then none else some string
  | command => if c == '\x07' then none else some command

end Sequence

/-! ## Plain text -/

/-- Where a character stands. -/
inductive Position where
  /-- Outside of every sequence. -/
  | outside
  /-- In a sequence. -/
  | inside (s : Sequence)
  /-- In a sequence that a layout character has suspended. -/
  | suspended (s : Sequence)
  deriving DecidableEq, Repr

namespace Position

/-- Whether the character is kept, and where the next one stands. -/
def step (p : Position) (c : Char) : Bool × Position :=
  if c == '\x1b' then (false, .inside .escape)
  else if c == '\x18' || c == '\x1a' then (false, .outside)
  else
    match p with
    | .outside => (isPlain c, .outside)
    | .inside s =>
      if s.keepsLayout && isLayout c then (true, .suspended s)
      else
        match s.next c with
        | some s => (false, .inside s)
        | none => (false, .outside)
    | .suspended s =>
      if '\x7f' < c then (true, .outside)
      else if isPlain c then (true, .suspended s)
      else (false, .inside s)

/-- The characters that are kept, from a position on. -/
def plainFrom (p : Position) : List Char → List Char
  | [] => []
  | c :: cs =>
    let (kept, next) := p.step c
    if kept then c :: next.plainFrom cs else next.plainFrom cs

end Position

/-- The text without control sequences and without control characters, except for those that lay
out lines. -/
def plain (s : String) : String :=
  String.ofList (Position.outside.plainFrom s.toList)

end SsaMachine.Text
