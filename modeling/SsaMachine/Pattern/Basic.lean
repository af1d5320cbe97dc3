import SsaMachine.Pattern.Options

set_option autoImplicit false

/-! # Patterns

A pattern is a regular expression, as far as its form goes: what a pattern matches plays no part
here, so that every class of characters that has a name is like every other, and all the anchors
are one.
-/

namespace SsaMachine

namespace Pattern

/-- A character that stands for itself. -/
structure Literal where
  char : Char
  /-- Whether it was written as the two digits of a byte. -/
  byte : Bool
  deriving DecidableEq, Repr

/-- What stands in a class between brackets. -/
inductive Members where
  | empty
  | literal (l : Literal)
  | range (first last : Literal)
  /-- A class that has a name, such as `[:alpha:]`. -/
  | named (negated : Bool)
  /-- A class that is written as an escape, such as `\d`. -/
  | shorthand (negated : Bool)
  | nested (negated : Bool) (m : Members)
  | union (ms : List Members)
  /-- What an operator makes of two classes. -/
  | combination (left right : Members)
  deriving Repr

end Pattern

/-- A pattern. -/
inductive Pattern where
  | empty
  /-- A change of the options for the rest of the group. -/
  | options (letters : List Char)
  | literal (l : Pattern.Literal)
  /-- Any character. -/
  | dot
  | anchor
  | wordBoundary
  /-- A class that is written as an escape, such as `\d`. -/
  | shorthand (negated : Bool)
  | bracket (negated : Bool) (m : Pattern.Members)
  | repetition (p : Pattern)
  | group (letters : List Char) (p : Pattern)
  | sequence (ps : List Pattern)
  | choice (ps : List Pattern)
  deriving Repr

namespace Pattern

/-- The union of members, which is nothing new for a single one. -/
def Members.ofList : List Members → Members
  | [] => .empty
  | [m] => m
  | ms => .union ms

/-- The sequence of patterns, which is nothing new for a single one. -/
def ofList : List Pattern → Pattern
  | [] => .empty
  | [p] => p
  | ps => .sequence ps

/-! ## Depth -/

mutual

/-- How deep the members of a class are nested. -/
def Members.depth : Members → Nat
  | .empty | .literal _ | .range _ _ | .named _ | .shorthand _ => 0
  | .nested _ m => m.depth + 1
  | .union ms => Members.greatestDepth ms + 1
  | .combination l r => max l.depth r.depth + 1

/-- How deep the deepest of the members are nested. -/
def Members.greatestDepth : List Members → Nat
  | [] => 0
  | m :: ms => max m.depth (Members.greatestDepth ms)

end

mutual

/-- How deep a pattern is nested: each group, class, repetition, sequence and choice is a level of
its own. -/
def depth : Pattern → Nat
  | .empty | .options _ | .literal _ | .dot | .anchor | .wordBoundary | .shorthand _ => 0
  | .bracket _ m => m.depth + 1
  | .repetition p => p.depth + 1
  | .group _ p => p.depth + 1
  | .sequence ps => greatestDepth ps + 1
  | .choice ps => greatestDepth ps + 1

/-- How deep the deepest of the patterns is nested. -/
def greatestDepth : List Pattern → Nat
  | [] => 0
  | p :: ps => max p.depth (greatestDepth ps)

end

end Pattern

end SsaMachine
