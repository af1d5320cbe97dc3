import SsaMachine.Pattern.Bracket
import SsaMachine.Text.Numeric

set_option autoImplicit false

/-! # Reading patterns

A pattern is a choice between sequences, and a sequence is made of symbols, classes and groups,
each perhaps with repetitions behind it. A group can have a name, which no other group has, or
letters that change the options. There are no counted repetitions: what a brace could close is the
end of the pattern.
-/

namespace SsaMachine.Pattern

/-! ## Groups -/

/-- How a group starts. -/
inductive Opening where
  /-- It is no group at all but a change of the options. -/
  | options (letters : List Char)
  /-- A group, with options of its own or with a name. -/
  | group (letters : List Char) (name : Option (List Char))
  deriving DecidableEq, Repr

/-- Whether a group can have the name. -/
def isName : List Char → Bool
  | [] => false
  | c :: cs =>
    (c == '_' || Text.isAlphabetic c) &&
      cs.all fun c => c == '_' || c == '.' || c == '[' || c == ']' || Text.isAlphanumeric c

/-- Reads the name of a group and the angle bracket behind it. -/
def readName? (cs : List Char) : Option (Opening × List Char) :=
  let name := cs.takeWhile (· != '>')
  match cs.dropWhile (· != '>') with
  | [] => none
  | _ :: rest => if isName name then some (.group [] (some name), rest) else none

/-- Reads letters for options, and what ends them. -/
def readLetters? (cs : List Char) : Option (Opening × List Char) :=
  let letters := cs.takeWhile fun c => c != ':' && c != ')'
  match cs.dropWhile fun c => c != ':' && c != ')' with
  | [] => none
  | c :: rest =>
    if !Options.areLetters letters then none
    else if c == ':' then some (.group letters none, rest)
    else if letters.isEmpty then none
    else some (.options letters, rest)

/-- Reads the start of a group, after its parenthesis. -/
def readOpening? (verbose : Bool) (cs : List Char) : Option (Opening × List Char) :=
  match skip verbose cs with
  | '?' :: 'P' :: '<' :: cs => readName? cs
  | '?' :: '<' :: cs => readName? cs
  | '?' :: cs => readLetters? cs
  | cs => some (.group [] none, cs)

/-! ## Sequences and choices -/

/-- The pattern made of the current sequence, last part first, and of the sequences before it,
last one first. -/
def ofBranches (branches : List Pattern) (parts : List Pattern) : Pattern :=
  match branches with
  | [] => ofList parts.reverse
  | _ => .choice (ofList parts.reverse :: branches).reverse

/-- Repeats the last part of a sequence. -/
def repeatLast? : List Pattern → Option (List Pattern)
  | [] => none
  | .options _ :: _ => none
  | p :: ps => some (.repetition p :: ps)

/-- Drops the mark that makes a repetition lazy. -/
def dropLazy : List Char → List Char
  | '?' :: cs => cs
  | cs => cs

/-- Reads a pattern up to the end of its group or of the text, with the parts of the current
sequence and the sequences before it, and the names that groups have already. The fuel bounds the
number of parts. -/
def readParts? : Nat → Options → List (List Char) → List Pattern → List Pattern → List Char →
    Option (Pattern × List (List Char) × List Char)
  | 0, _, _, _, _, _ => none
  | fuel + 1, o, names, branches, parts, cs =>
    match skip o.verbose cs with
    | [] => some (ofBranches branches parts, names, [])
    | c :: cs =>
      if c == ')' then some (ofBranches branches parts, names, c :: cs)
      else if c == '|' then
        readParts? fuel o names (ofList parts.reverse :: branches) [] cs
      else if c == '(' then
        match readOpening? o.verbose cs with
        | none => none
        | some (.options letters, cs) =>
          readParts? fuel (o.change letters) names branches (.options letters :: parts) cs
        | some (.group letters name, cs) =>
          if name.any names.contains then none
          else
            match readParts? fuel (o.change letters) (name.toList ++ names) [] [] cs with
            | some (p, names, ')' :: cs) =>
              readParts? fuel o names branches (.group letters p :: parts) cs
            | _ => none
      else if c == '[' then
        match readBracket? o.verbose cs with
        | none => none
        | some (p, cs) => readParts? fuel o names branches (p :: parts) cs
      else if c == '*' || c == '+' || c == '?' then
        match repeatLast? parts with
        | none => none
        | some parts => readParts? fuel o names branches parts (dropLazy cs)
      else if c == '\x7b' then none
      else
        match readSymbol? o.verbose c cs with
        | none => none
        | some (p, cs) => readParts? fuel o names branches (p :: parts) cs

/-- The pattern that a text writes. -/
def ofText? (cs : List Char) : Option Pattern :=
  match readParts? (cs.length + 1) .standard [] [] [] cs with
  | some (p, _, []) => some p
  | _ => none

end SsaMachine.Pattern
