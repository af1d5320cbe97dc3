import SsaMachine.Fault

set_option autoImplicit false

/-! # Memory

Memory is made of cells, each holding one value. Cells are created with a value and never
disappear, so a cell is known by the number of cells there were before it. A cell keeps the
kind of the value it was created with: storing a value of another kind is a fault, and a fault
changes nothing.

An address that names no cell behaves like the null address. No operation makes such an
address.
-/

namespace SsaMachine

/-- The cells, in the order of their creation. -/
structure Memory where
  cells : Array Value

namespace Memory

/-- The memory without cells. -/
def empty : Memory := ⟨#[]⟩

/-- The number of cells. -/
def size (m : Memory) : Nat :=
  m.cells.size

/-- What the cell with the given number holds. -/
def cell? (m : Memory) (id : Nat) : Option Value :=
  m.cells[id]?

/-- What an address leads to. -/
def content? (m : Memory) : Address → Option Value
  | .null => none
  | .cell id => m.cell? id

/-- Creates a cell, and gives its address. -/
def alloc (m : Memory) (v : Value) : Address × Memory :=
  (.cell m.size, ⟨m.cells.push v⟩)

/-- The value stored at an address. -/
def read (m : Memory) (a : Address) : Except Fault Value :=
  match m.content? a with
  | some v => .ok v
  | none => .error .nilDereference

/-- Stores a value at an address. -/
def write (m : Memory) (a : Address) (v : Value) : Except Fault Memory :=
  match a with
  | .null => .error .nilDereference
  | .cell id =>
    match m.cell? id with
    | none => .error .nilDereference
    | some old =>
      if old.sameKind v then .ok ⟨m.cells.setIfInBounds id v⟩
      else .error (.typeMismatch .store old.kind v.kind)

/-! ## What the operations do to the contents -/

/-- A new cell holds the value it was created with. -/
theorem content?_alloc_self (m : Memory) (v : Value) :
    (m.alloc v).2.content? (m.alloc v).1 = some v := by
  simp [alloc, content?, cell?, size]

/-- A new cell was not there before. -/
theorem content?_alloc_fst (m : Memory) (v : Value) : m.content? (m.alloc v).1 = none := by
  simp [alloc, content?, cell?, size]

/-- Creating a cell changes no other cell. -/
theorem content?_alloc_of_eq_some {m : Memory} {a : Address} {w : Value} (v : Value)
    (h : m.content? a = some w) : (m.alloc v).2.content? a = some w := by
  cases a with
  | null => cases h
  | cell id =>
      have hlt : id < m.cells.size := (Array.getElem?_eq_some_iff.mp h).1
      simpa [alloc, content?, cell?, Array.getElem?_push, Nat.ne_of_lt hlt] using h

theorem read_eq_ok_iff {m : Memory} {a : Address} {v : Value} :
    m.read a = .ok v ↔ m.content? a = some v := by
  unfold read
  cases m.content? a <;> simp

/-- A store succeeds exactly when it replaces a value of the same kind. -/
theorem write_eq_ok_iff {m m' : Memory} {a : Address} {v : Value} :
    m.write a v = .ok m' ↔
      ∃ id old, a = .cell id ∧ m.cell? id = some old ∧ old.sameKind v = true ∧
        m' = ⟨m.cells.setIfInBounds id v⟩ := by
  cases a with
  | null => simp [write]
  | cell id =>
      cases h : m.cell? id with
      | none =>
          simp only [write, h, reduceCtorEq, Address.cell.injEq, false_iff]
          rintro ⟨_, _, rfl, hold, _⟩
          simp [h] at hold
      | some old =>
          by_cases hk : old.sameKind v = true
          · simp only [write, h, hk, if_true, Except.ok.injEq]
            refine ⟨fun hm => ⟨id, old, rfl, h, hk, hm.symm⟩, ?_⟩
            rintro ⟨_, _, hid, _, _, rfl⟩
            cases hid
            rfl
          · simp only [write, h, hk, if_false, Bool.false_eq_true, reduceCtorEq, false_iff]
            rintro ⟨_, _, hid, hold, hsame, _⟩
            cases hid
            rw [h] at hold
            cases hold
            exact hk hsame

/-- After a store, the address leads to the stored value. -/
theorem content?_write_self {m m' : Memory} {a : Address} {v : Value}
    (h : m.write a v = .ok m') : m'.content? a = some v := by
  obtain ⟨id, old, rfl, hold, -, rfl⟩ := write_eq_ok_iff.mp h
  have hlt : id < m.cells.size := (Array.getElem?_eq_some_iff.mp hold).1
  simp [content?, cell?, hlt]

/-- A store changes what no other address leads to. -/
theorem content?_write_of_ne {m m' : Memory} {a b : Address} {v : Value}
    (h : m.write a v = .ok m') (hne : b ≠ a) : m'.content? b = m.content? b := by
  obtain ⟨id, old, rfl, -, -, rfl⟩ := write_eq_ok_iff.mp h
  cases b with
  | null => rfl
  | cell k =>
      have hk : id ≠ k := fun e => hne (by rw [e])
      simp [content?, cell?, hk]

end Memory

end SsaMachine
