import SsaMachine.Log.Directive
import SsaMachine.Text.Quoted

set_option autoImplicit false

/-! # The log

Beside what it tells its user, the program keeps a log on its error stream. A record of the log
is one line, unless the text it reports has several lines of its own: line ends stay as they are,
and only characters that could make a terminal act are escaped.

The setting of the log is a list of directives, separated by commas. One that cannot be read is
passed over, and the log opens with a notice of it. Without any directive the log records
failures and nothing less.
-/

namespace SsaMachine

/-- The log, as far as failures are concerned. -/
structure Log where
  /-- What the log opens with. -/
  notices : String
  /-- Whether failures are recorded. -/
  failures : Bool
  deriving DecidableEq, Repr

namespace Log

/-! ## Setting -/

/-- The log of a program that was told nothing about it. -/
def standard : Log := ⟨"", true⟩

/-- The pieces of a text between commas. -/
def pieces : List Char → List (List Char)
  | [] => [[]]
  | c :: cs =>
    match pieces cs with
    | [] => [[c]]
    | p :: ps => if c == ',' then [] :: p :: ps else (c :: p) :: ps

/-- What is said about a piece that is no directive. -/
def notice (piece : List Char) (r : Refusal) : String :=
  "ignoring `" ++ String.ofList piece ++ "`: " ++ r.message ++ "\n"

/-- Whether the directives have failures recorded. -/
def recordsFailures (ds : List Directive) : Bool :=
  ds.isEmpty || (Directive.governing? ds "ssarun" ["message"]).any (·.level != .off)

/-- The log for the pieces of a setting, when `ds` have been read and `notices` written already;
the notices alone if a piece cannot be cut into its parts. -/
def ofPieces (notices : String) (ds : List Directive) : List (List Char) → Except String Log
  | [] => .ok ⟨notices, recordsFailures ds⟩
  | p :: ps =>
    match Directive.read p with
    | .ok d => ofPieces notices (ds ++ [d]) ps
    | .error .split => .error notices
    | .error r => ofPieces (notices ++ notice p r) ds ps

/-- The log for a setting. -/
def ofSetting (setting : String) : Except String Log :=
  ofPieces "" [] ((pieces setting.toList).filter fun p => !p.isEmpty)

/-! ## Records -/

/-- How a character is written in a record. -/
def escape (c : Char) : List Char :=
  if c == '\x07' then "\\x07".toList
  else if c == '\x08' then "\\x08".toList
  else if c == '\x0c' then "\\x0c".toList
  else if c == '\x1b' then "\\x1b".toList
  else if c == '\x7f' then "\\x7f".toList
  else if '\x7f' < c && c < '\u00a0' then Text.codePointEscape c
  else [c]

/-- What the log receives when a sample cannot be run. -/
def failureRecord (log : Log) (message : String) : String :=
  if log.failures then
    "ERROR ssarun: Interpretation failed: " ++ String.ofList (message.toList.flatMap escape) ++ "\n"
  else ""

end Log

end SsaMachine
