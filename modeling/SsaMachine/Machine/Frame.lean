import SsaMachine.Fault

set_option autoImplicit false

/-! # Frames

The frame of a call holds the values that the called function has defined so far, the block
that is being executed and the one that was executed before it. Executing an instruction again
rebinds its value. A frame without a current block belongs to a call that has returned.
-/

namespace SsaMachine

/-- The frame of a call. -/
structure Frame where
  slots : Array (Option Value)
  block : Option BlockId
  previous : Option BlockId
  result : Value

namespace Frame

/-- The frame of a call that is about to start at `entry`, with room for `count` values. -/
def start (count : Nat) (entry : BlockId) : Frame where
  slots := Array.replicate count none
  block := some entry
  previous := none
  result := .unit

/-- The value bound to a number. -/
def value? (f : Frame) (id : ValueId) : Option Value :=
  f.slots[id]?.join

/-- The value bound to a number, which must be bound. -/
def lookup (f : Frame) (id : ValueId) : Except Fault Value :=
  match f.value? id with
  | some v => .ok v
  | none => .error (.unboundValue id)

/-- Binds a value to a number, for which the frame must have room. -/
def bind (f : Frame) (id : ValueId) (v : Value) : Except Fault Frame :=
  if id < f.slots.size then .ok { f with slots := f.slots.setIfInBounds id (some v) }
  else .error (.unboundValue id)

/-- Binds the result of an instruction, if the instruction defines a value. -/
def define (f : Frame) (dest : Option ValueId) (v : Value) : Except Fault Frame :=
  match dest with
  | some id => f.bind id v
  | none => .ok f

/-- Moves on to another block. -/
def transfer (f : Frame) (target : BlockId) : Frame :=
  { f with previous := f.block, block := some target }

/-- Ends the call with a result. -/
def finish (f : Frame) (v : Value) : Frame :=
  { f with result := v, block := none }

/-! ## What binding does to the values -/

@[simp] theorem value?_start (count : Nat) (entry : BlockId) (id : ValueId) :
    (start count entry).value? id = none := by
  by_cases h : id < count <;> simp [start, value?, h]

theorem bind_eq_ok_iff {f f' : Frame} {id : ValueId} {v : Value} :
    f.bind id v = .ok f' ↔
      id < f.slots.size ∧ f' = { f with slots := f.slots.setIfInBounds id (some v) } := by
  unfold bind
  by_cases h : id < f.slots.size <;> simp [h, eq_comm]

/-- A bound value is found under its number. -/
theorem value?_bind_self {f f' : Frame} {id : ValueId} {v : Value} (h : f.bind id v = .ok f') :
    f'.value? id = some v := by
  obtain ⟨hlt, rfl⟩ := bind_eq_ok_iff.mp h
  simp [value?, hlt]

/-- Binding a value changes no other. -/
theorem value?_bind_of_ne {f f' : Frame} {id k : ValueId} {v : Value} (h : f.bind id v = .ok f')
    (hne : k ≠ id) : f'.value? k = f.value? k := by
  obtain ⟨-, rfl⟩ := bind_eq_ok_iff.mp h
  simp [value?, Ne.symm hne]

theorem lookup_eq_ok_iff {f : Frame} {id : ValueId} {v : Value} :
    f.lookup id = .ok v ↔ f.value? id = some v := by
  unfold lookup
  cases f.value? id <;> simp

end Frame

end SsaMachine
