import SsaMachine.Memory.Cells
import SsaMachine.Program.Basic

set_option autoImplicit false

/-! # Global variables

Each global variable of a program has a cell of its own, known by the variable's name. The
cells are created together, holding the zero values of the declared types. Initialization
happens once: it either creates all cells or, when some type has no zero value, none, and once
it has succeeded it never happens again.
-/

namespace SsaMachine

/-- The zero value of a type. -/
def Ty.zero (t : Ty) : Except Fault Value :=
  match t.zero? with
  | some v => .ok v
  | none => .error (.noZeroValue t.defaulted)

/-- The cells of the global variables, the latest first. -/
structure Globals where
  initialized : Bool
  cells : List (String × Address)

namespace Globals

/-- The state before initialization: no variable has a cell. -/
def empty : Globals := ⟨false, []⟩

/-- Creates a cell for each variable, in order, after those in `cells`. -/
def allocate (cells : List (String × Address)) (m : Memory) :
    List Global → Except Fault (List (String × Address) × Memory)
  | [] => .ok (cells, m)
  | g :: gs =>
    match g.ty.zero with
    | .error e => .error e
    | .ok v =>
      let (a, m) := m.alloc v
      allocate ((g.name, a) :: cells) m gs

/-- Creates the cells of the variables unless that has happened before. -/
def setUp (g : Globals) (vars : List Global) (m : Memory) :
    Except Fault (Globals × Memory) :=
  if g.initialized then .ok (g, m)
  else
    match allocate [] m vars with
    | .error e => .error e
    | .ok (cells, m) => .ok (⟨true, cells⟩, m)

/-- The address of a variable. -/
def address (g : Globals) (name : String) : Except Fault Address :=
  match g.cells.lookup name with
  | some a => .ok a
  | none => .error (.unknownGlobal name)

/-- The value of a variable. -/
def read (g : Globals) (m : Memory) (name : String) : Except Fault Value := do
  m.read (← g.address name)

/-- Changes the value of a variable. -/
def write (g : Globals) (m : Memory) (name : String) (v : Value) : Except Fault Memory := do
  m.write (← g.address name) v

end Globals

end SsaMachine
