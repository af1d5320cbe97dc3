import SsaMachine.Log.Level
import SsaMachine.Pattern.Usable

set_option autoImplicit false

/-! # Directives for the log

A directive says how much is recorded, and of what. It is a level, or a target, or a target with a
level behind an equals sign:

    warn        ssarun        ssarun=debug

A target covers the parts of the program whose names start with it. In brackets after the target,
or in its place, a directive can name a span of the work to which it is bound, and in braces inside
the brackets a field that a record must have, perhaps with a value, which is a number or a pattern:

    [request]   ssarun[request]=info   [{message}]=error   [request{user=7}]

A directive that gives no level records everything. No blanks belong in it: they are passed over
when the parts of a directive are located, but the parts are cut out of the text with the blanks,
each as many bytes from its start as it was found from the first character that is no blank. So
a directive with blanks around it seldom says what was meant, and where such a cut would split a
character the text cannot be read at all.
-/

namespace SsaMachine.Log

/-! ## Cutting by bytes -/

/-- The number of bytes that a text takes. -/
def byteSize (cs : List Char) : Nat :=
  cs.foldl (fun n c => n + c.utf8Size) 0

/-- The text after its first `n` bytes, unless they end inside a character. -/
def dropBytes? : Nat → List Char → Option (List Char)
  | 0, cs => some cs
  | _ + 1, [] => none
  | n + 1, c :: cs => if c.utf8Size ≤ n + 1 then dropBytes? (n + 1 - c.utf8Size) cs else none

/-- The first `n` bytes of the text, unless they end inside a character. -/
def takeBytes? : Nat → List Char → Option (List Char)
  | 0, _ => some []
  | _ + 1, [] => none
  | n + 1, c :: cs =>
    if c.utf8Size ≤ n + 1 then (takeBytes? (n + 1 - c.utf8Size) cs).map (c :: ·) else none

/-! ## Directives -/

/-- A field that a record must have. -/
structure Field where
  name : String
  /-- Whether the value of the field matters too. -/
  valued : Bool
  deriving DecidableEq, Repr

/-- What is recorded. -/
structure Directive where
  /-- The parts of the program that the directive covers: all of them if there is no target. -/
  target : Option String
  /-- Whether it is bound to a span. -/
  spanned : Bool
  field : Option Field
  level : Level
  deriving DecidableEq, Repr

/-- Why a text is no directive. -/
inductive Refusal where
  /-- It does not have the form of a directive. -/
  | form
  /-- There is something behind the equals sign that is no level. -/
  | level
  /-- The value of a field is neither a number nor a pattern that can be used. -/
  | value (flaw : Pattern.Flaw)
  /-- A part of it would start or end inside a character. -/
  | split
  deriving DecidableEq, Repr

/-- What is said about a text that is no directive. -/
def Refusal.message : Refusal → String
  | form | split => "invalid filter directive"
  | level =>
    "error parsing level filter: expected one of \"off\", \"error\", \"warn\", \"info\", " ++
      "\"debug\", \"trace\", or a number 0-5"
  | value flaw => "invalid field filter: " ++ flaw.message

namespace Directive

/-! ## Reading -/

/-- The part of the text between two places. -/
def cut (text : List Char) (start stop : Nat) : Except Refusal (List Char) :=
  match dropBytes? start text >>= takeBytes? (stop - start) with
  | some part => .ok part
  | none => .error .split

/-- The level that the text gives from a place on; every record if there is no more text. -/
def readLevel (text : List Char) (start : Nat) : Except Refusal Level :=
  match dropBytes? start text with
  | none => .error .split
  | some [] => .ok .trace
  | some (c :: cs) =>
    match Level.ofText? (c :: cs) with
    | some l => .ok l
    | none => .error .level

/-- The field that a text describes: a name, and perhaps a value behind an equals sign, up to the
next one. -/
def readField (cs : List Char) : Except Refusal Field :=
  let name := String.ofList (cs.takeWhile (· != '='))
  match cs.dropWhile (· != '=') with
  | [] => .ok ⟨name, false⟩
  | _ :: rest =>
    let value := rest.takeWhile (· != '=')
    if (Decimal.readFloat? value).isSome then .ok ⟨name, true⟩
    else
      match Pattern.check value with
      | .ok () => .ok ⟨name, true⟩
      | .error flaw => .error (.value flaw)

/-- Reads what follows the brackets, which end at `place`. -/
def readTail (text : List Char) (place : Nat) (d : Directive) : List Char → Except Refusal Directive
  | [] => .ok d
  | c :: _ =>
    if c == '=' then do return { d with level := ← readLevel text (place + 1) }
    else .error .form

/-- Reads what the braces hold, from `place` on, and what follows them. -/
def readBraces (text : List Char) (place : Nat) (d : Directive) (rest : List Char) :
    Except Refusal Directive := do
  let stop := place + byteSize (rest.takeWhile (· != '\x7d'))
  match rest.dropWhile (· != '\x7d') with
  | [] => throw .form
  | _ :: rest =>
    let part ← cut text place stop
    if part.isEmpty then throw .form
    let field ← readField part
    match rest with
    | ']' :: rest => readTail text (stop + 2) { d with field := some field } rest
    | _ => throw .form

/-- Reads what the brackets hold, from `place` on, and what follows them. -/
def readBrackets (text : List Char) (place : Nat) (target : Option String) (rest : List Char) :
    Except Refusal Directive := do
  let name := rest.takeWhile fun c => c != ']' && c != '\x7b'
  let stop := place + byteSize name
  match rest.dropWhile fun c => c != ']' && c != '\x7b' with
  | [] => throw .form
  | c :: rest =>
    let _ ← cut text place stop
    if c == ']' then readTail text (stop + 1) ⟨target, true, none, .trace⟩ rest
    else readBraces text (stop + 1) ⟨target, !name.isEmpty, none, .trace⟩ rest

/-- A text that is only a level or only a target. -/
def ofWord (cs : List Char) : Directive :=
  match Level.ofText? cs with
  | some l => ⟨none, false, none, l⟩
  | none => ⟨some (String.ofList cs), false, none, .trace⟩

/-- Whether a target or a level may start with the character. -/
def startsWord (c : Char) : Bool :=
  c == '-' || c == ':' || c == '_' || Text.isAlphanumeric c

/-- Reads a directive. -/
def read (text : List Char) : Except Refusal Directive := do
  match Text.trim text with
  | [] => throw .form
  | c :: rest =>
    if c == '[' then readBrackets text 1 none rest
    else if startsWord c then
      let place := byteSize ((c :: rest).takeWhile fun c => c != '=' && c != '[')
      match (c :: rest).dropWhile fun c => c != '=' && c != '[' with
      | [] => return ofWord text
      | c :: rest =>
        let target := some (String.ofList (← cut text 0 place))
        if c == '=' then return ⟨target, false, none, ← readLevel text (place + 1)⟩
        else readBrackets text (place + 1) target rest
    else throw .form

/-! ## Which directive governs a record -/

/-- Whether the directive covers the records of a part of the program that have the given fields,
outside of every span. -/
def covers (d : Directive) (part : String) (fields : List String) : Bool :=
  !d.spanned && d.target.all (fun t => t.toList.isPrefixOf part.toList) &&
    d.field.all fun f => !f.valued && fields.contains f.name

/-- How specific a directive is: by the length of its target, then by its field. -/
def specificity (d : Directive) : Nat :=
  2 * (d.target.elim 0 fun t => t.utf8ByteSize + 1) + (if d.field.isSome then 1 else 0)

/-- Of the directives that cover a record the most specific governs it, and of several such the
last. -/
def governing? (ds : List Directive) (part : String) (fields : List String) : Option Directive :=
  (ds.filter (·.covers part fields)).foldl
    (fun best d => if best.all (·.specificity ≤ d.specificity) then some d else best) none

end Directive

end SsaMachine.Log
