import SsaMachine.Fault

set_option autoImplicit false

/-! # Output sinks

Where printed text goes. A sink accepts bytes until it has no room left, if it has a limit at
all; of a text that does not fit, it accepts as many bytes as it has room for and reports the
rest as refused. Text that was accepted is flushed separately, and that can fail on its own.
A failure never takes back what was accepted.
-/

namespace SsaMachine

/-- A sink for bytes. -/
structure Sink where
  /-- The bytes accepted so far. -/
  accepted : ByteArray
  /-- How many more bytes can be accepted; `none` stands for any number. -/
  room : Option Nat
  /-- What is reported when bytes are refused. -/
  refusal : String
  /-- What is reported when accepted bytes are flushed, if that fails. -/
  flushFailure : Option String

namespace Sink

/-- A sink that accepts everything. -/
def unlimited : Sink := ⟨.empty, none, "", none⟩

/-- A sink that accepts `limit` bytes in all. -/
def limited (limit : Nat) (refusal : String) (flushFailure : Option String) : Sink :=
  ⟨.empty, some limit, refusal, flushFailure⟩

/-- Offers a text. Reports a failure when not all of it is accepted. -/
def write (s : Sink) (text : String) : Option String × Sink :=
  let bytes := text.toUTF8
  match s.room with
  | none => (none, { s with accepted := s.accepted ++ bytes })
  | some n =>
    let accepted := s.accepted ++ bytes.extract 0 n
    let sink := { s with accepted := accepted, room := some (n - bytes.size) }
    if bytes.size ≤ n then (none, sink) else (some s.refusal, sink)

/-- Offers a text and then flushes. -/
def writeThrough (s : Sink) (text : String) : Option String × Sink :=
  match s.write text with
  | (some failure, s) => (some failure, s)
  | (none, s) => (s.flushFailure, s)

end Sink

end SsaMachine
