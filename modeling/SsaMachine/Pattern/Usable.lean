import SsaMachine.Pattern.Reading

set_option autoImplicit false

/-! # Usable patterns

A pattern is made into an automaton before it is used, and not every pattern can be. The automaton
reads bytes and knows no table of characters, so there is no telling which characters are digits,
or differ in case only; a pattern that speaks of bytes must not match half a character; and no
automaton finds the boundaries of words in any script. A pattern must not be nested too deeply
either.
-/

namespace SsaMachine.Pattern

/-- Why a text cannot be used as a pattern. -/
inductive Flaw where
  /-- It has not the form of a pattern, or says what no automaton can be made of. -/
  | unbuildable
  /-- It asks for the boundaries of words in any script. -/
  | wordBoundary
  deriving DecidableEq, Repr

/-- What is said about a text that cannot be used as a pattern. -/
def Flaw.message : Flaw → String
  | unbuildable => "error building NFA"
  | wordBoundary =>
    "unsupported regex feature for DFAs: cannot build DFAs for regexes with Unicode word " ++
      "boundaries; switch to ASCII word boundaries, or heuristically enable Unicode word " ++
      "boundaries or use a different regex engine"

/-! ## Classes -/

namespace Options

/-- Whether a character can stand by itself. Telling its cases apart would take a table of
characters, and the byte of a wider character is half of it. -/
def admits (o : Options) (l : Literal) : Bool :=
  if o.unicode then !o.caseless else !(l.byte && 0x80 ≤ l.char.toNat)

/-- Whether a character can be a member of a class; a class of bytes holds ASCII only. -/
def admitsMember (o : Options) (l : Literal) : Bool :=
  if o.unicode then !o.caseless else l.char.toNat < 0x80

/-- Whether a class that has a name can be used. -/
def admitsNamed (o : Options) (negated : Bool) : Bool :=
  if o.unicode then !o.caseless else !negated

/-- Whether a class that is written as an escape can be used. -/
def admitsShorthand (o : Options) (negated : Bool) : Bool :=
  !o.unicode && !negated

/-- Whether the members of a class can be negated; of bytes, half a character would be left. -/
def admitsNegation (o : Options) (negated : Bool) : Bool :=
  o.unicode || !negated

end Options

mutual

/-- Whether the members of a class can be used under the options. -/
def Members.isUsable (o : Options) : Members → Bool
  | .empty => true
  | .literal l => o.admitsMember l
  | .range a b => o.admitsMember a && o.admitsMember b
  | .named negated => o.admitsNamed negated
  | .shorthand negated => o.admitsShorthand negated
  | .nested negated m => o.admitsNegation negated && m.isUsable o
  | .union ms => Members.areUsable o ms
  | .combination l r => l.isUsable o && r.isUsable o

/-- Whether each of the members can be used under the options. -/
def Members.areUsable (o : Options) : List Members → Bool
  | [] => true
  | m :: ms => m.isUsable o && Members.areUsable o ms

end

/-! ## Patterns -/

mutual

/-- The options after a pattern, and whether it asks for the boundaries of words in any script;
`none` if it cannot be used under the options before it. -/
def survey? (o : Options) : Pattern → Option (Options × Bool)
  | .empty | .anchor => some (o, false)
  | .options letters => some (o.change letters, false)
  | .literal l => if o.admits l then some (o, false) else none
  | .dot => if o.unicode then some (o, false) else none
  | .wordBoundary => some (o, o.unicode)
  | .shorthand negated => if o.admitsShorthand negated then some (o, false) else none
  | .bracket negated m =>
    if o.admitsNegation negated && m.isUsable o then some (o, false) else none
  | .repetition p => survey? o p
  | .group letters p => (survey? (o.change letters) p).map fun (_, found) => (o, found)
  | .sequence ps => surveyAll? o ps
  | .choice ps => surveyAll? o ps

/-- The same for patterns one after the other. -/
def surveyAll? (o : Options) : List Pattern → Option (Options × Bool)
  | [] => some (o, false)
  | p :: ps =>
    match survey? o p with
    | none => none
    | some (o, found) => (surveyAll? o ps).map fun (o, more) => (o, found || more)

end

/-- The greatest depth of a usable pattern. -/
def depthLimit : Nat := 250

/-- Whether a text can be used as a pattern. -/
def check (cs : List Char) : Except Flaw Unit :=
  match ofText? cs with
  | none => .error .unbuildable
  | some p =>
    if depthLimit < p.depth then .error .unbuildable
    else
      match survey? .standard p with
      | none => .error .unbuildable
      | some (_, true) => .error .wordBoundary
      | some (_, false) => .ok ()

end SsaMachine.Pattern
