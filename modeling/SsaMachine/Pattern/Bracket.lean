import SsaMachine.Pattern.Symbol

set_option autoImplicit false

/-! # Reading classes between brackets

A class lists its members between brackets: characters, ranges of them, classes with a name and
further classes between brackets. After a caret it holds everything else. The operators `&&`, `--`
and `~~` stand between groups of members and bind from left to right. A dash, and a closing bracket
in the first place, are members if nothing but dashes stands before them.
-/

namespace SsaMachine.Pattern

/-- The names of classes. -/
def classNames : List String :=
  ["alnum", "alpha", "ascii", "blank", "cntrl", "digit", "graph", "lower", "print", "punct",
   "space", "upper", "word", "xdigit"]

/-- Reads a class that has a name, after its opening bracket, and tells whether it is negated. -/
def readNamed? : List Char → Option (Bool × List Char)
  | ':' :: cs =>
    let (negated, cs) :=
      match cs with
      | '^' :: cs => (true, cs)
      | cs => (false, cs)
    match cs.dropWhile (· != ':') with
    | ':' :: ']' :: rest =>
      if classNames.contains (String.ofList (cs.takeWhile (· != ':'))) then some (negated, rest)
      else none
    | _ => none
  | _ => none

/-- Reads a caret after an opening bracket, if there is one. -/
def readNegation (verbose : Bool) (cs : List Char) : Bool × List Char :=
  match skip verbose cs with
  | '^' :: cs => (true, cs)
  | cs => (false, cs)

/-- Reads an end of a range, or a member by itself. -/
def readEnd? (verbose : Bool) (c : Char) (cs : List Char) : Option (Pattern × List Char) :=
  if c == '\\' then readEscape? verbose cs else some (.literal ⟨c, false⟩, cs)

/-- A symbol as a member of a class. -/
def Members.ofSymbol? : Pattern → Option Members
  | .literal l => some (.literal l)
  | .shorthand negated => some (.shorthand negated)
  | _ => none

/-- Two symbols as the ends of a range. -/
def Members.ofEnds? : Pattern → Pattern → Option Members
  | .literal a, .literal b => if a.char ≤ b.char then some (.range a b) else none
  | _, _ => none

/-- Reads a member that starts with `c`, or a range. A dash makes a range unless a closing bracket
or another dash comes next. -/
def readMember? (verbose : Bool) (c : Char) (cs : List Char) : Option (Members × List Char) := do
  let (first, cs) ← readEnd? verbose c cs
  match skip verbose cs with
  | [] => none
  | d :: cs =>
    let next := peek? verbose cs
    if d != '-' || next == some ']' || next == some '-' then
      return (← Members.ofSymbol? first, d :: cs)
    else
      match skip verbose cs with
      | [] => none
      | e :: cs =>
        let (last, cs) ← readEnd? verbose e cs
        return (← Members.ofEnds? first last, cs)

/-- What has been read of a class, with the members before the last operator. -/
def Members.join (before : Option Members) (ms : List Members) : Members :=
  match before with
  | none => .ofList ms.reverse
  | some m => .combination m (.ofList ms.reverse)

/-- Whether an operator of a class starts with the character. -/
def startsOperator (c : Char) (cs : List Char) : Bool :=
  (c == '&' || c == '-' || c == '~') && cs.head? == some c

/-- Reads the members of a class up to its closing bracket, with the members `ms` read since the
last operator, last first, and `before` it; `fresh` tells whether there is nothing but dashes yet.
The fuel bounds the number of members. -/
def readMembers? (verbose : Bool) :
    Nat → Bool → Option Members → List Members → List Char → Option (Members × List Char)
  | 0, _, _, _, _ => none
  | fuel + 1, fresh, before, ms, cs =>
    match skip verbose cs with
    | [] => none
    | c :: cs =>
      if fresh && c == '-' then
        readMembers? verbose fuel true before (.literal ⟨c, false⟩ :: ms) cs
      else if c == ']' then
        if fresh && ms.isEmpty then
          readMembers? verbose fuel false before [.literal ⟨c, false⟩] cs
        else some (Members.join before ms, cs)
      else if c == '[' then
        match readNamed? cs with
        | some (negated, cs) => readMembers? verbose fuel false before (.named negated :: ms) cs
        | none =>
          let (negated, cs) := readNegation verbose cs
          match readMembers? verbose fuel true none [] cs with
          | none => none
          | some (m, cs) => readMembers? verbose fuel false before (.nested negated m :: ms) cs
      else if startsOperator c cs then
        readMembers? verbose fuel false (some (Members.join before ms)) [] cs.tail
      else
        match readMember? verbose c cs with
        | none => none
        | some (m, cs) => readMembers? verbose fuel false before (m :: ms) cs

/-- Reads a class after its opening bracket. -/
def readBracket? (verbose : Bool) (cs : List Char) : Option (Pattern × List Char) :=
  let (negated, cs) := readNegation verbose cs
  (readMembers? verbose (cs.length + 1) true none [] cs).map fun (m, cs) => (.bracket negated m, cs)

end SsaMachine.Pattern
