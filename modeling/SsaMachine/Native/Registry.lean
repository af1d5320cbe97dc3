import SsaMachine.Native.Basic

set_option autoImplicit false

/-! # Registered natives

The host functions that a program can call, each under a name. Registering a native under a
name that is taken replaces the one that was there, and starts counting its calls anew.
-/

namespace SsaMachine

/-- A native under a name, and how often it has been called. -/
structure Registration where
  name : String
  native : Native
  calls : Nat

/-- The registered natives; no name stands twice. -/
structure Registry where
  entries : List Registration

namespace Registry

/-- Puts a registration in the place of the one with the same name, or at the end. -/
def put (new : Registration) : List Registration → List Registration
  | [] => [new]
  | e :: es => if e.name == new.name then new :: es else e :: put new es

/-- Registers a native. -/
def register (r : Registry) (name : String) (native : Native) : Registry :=
  ⟨put ⟨name, native, 0⟩ r.entries⟩

/-- The natives that are always there. -/
def standard : Registry :=
  ((⟨[]⟩ : Registry).register "print" .print).register "println" .println

/-- The registration under a name. -/
def find? (r : Registry) (name : String) : Option Registration :=
  r.entries.find? fun e => e.name == name

/-- Whether a native is registered under a name. -/
def contains (r : Registry) (name : String) : Bool :=
  (r.find? name).isSome

/-- The text that lists the registered names, in order. -/
def description (r : Registry) : String :=
  let names := (r.entries.map Registration.name).mergeSort fun a b => decide (a ≤ b)
  "BuiltinRegistry \x7b natives: [" ++ ", ".intercalate (names.map Text.quote) ++ "], .. \x7d"

end Registry

/-- What a run works on: the cells, the natives and the output. -/
structure Resources where
  memory : Memory
  registry : Registry
  sink : Sink

namespace Resources

/-- Calls the native under a name. -/
def callNative (r : Resources) (name : String) (args : List Value) :
    Except Fault Value × Resources :=
  match r.registry.find? name with
  | none => (.error (.unknownBuiltin name), r)
  | some e =>
    let (result, memory, sink) := e.native.respond (e.calls + 1) args r.memory r.sink
    let registry := ⟨Registry.put { e with calls := e.calls + 1 } r.registry.entries⟩
    (result, ⟨memory, registry, sink⟩)

end Resources

end SsaMachine
