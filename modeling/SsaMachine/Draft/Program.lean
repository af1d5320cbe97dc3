import SsaMachine.Draft.Body
import SsaMachine.Program.Verify

set_option autoImplicit false

/-! # Drafts of programs

Functions are declared before their bodies are drafted, so that bodies can call each other, and
themselves. A body is drafted apart from the program and then put in the place of the
declaration it was started for; a later body replaces an earlier one. A program can be finished
once every declared function has a body, and is verified then.
-/

namespace SsaMachine

/-- The place of a function in a program draft. -/
inductive FunctionSlot where
  | declared (name : String) (params : List Param)
  | defined (f : Function)

/-- A program being drafted. -/
structure ProgramDraft where
  globals : List Global
  slots : List FunctionSlot

namespace ProgramDraft

/-- The draft without globals and functions. -/
def empty : ProgramDraft := ⟨[], []⟩

/-- Adds a global variable. -/
def global (name : String) (ty : Ty) : StateM ProgramDraft GlobalId := fun d =>
  (d.globals.length, { d with globals := d.globals ++ [⟨name, ty⟩] })

/-- Adds a place for a function. -/
def addSlot (s : FunctionSlot) : StateM ProgramDraft FunctionId := fun d =>
  (d.slots.length, { d with slots := d.slots ++ [s] })

/-- Declares a function whose body is still to come. -/
def declare (name : String) (params : List Param) : StateM ProgramDraft FunctionId :=
  addSlot (.declared name params)

/-- Declares a function that the host implements. -/
def external (name : String) (params : List Param) : StateM ProgramDraft FunctionId :=
  addSlot (.defined ⟨name, params, [], 0, 0⟩)

/-- Starts a body for a declared function. -/
def body (d : ProgramDraft) (id : FunctionId) : BodyDraft :=
  match d.slots[id]? with
  | some (.declared name params) => .start id name params
  | some (.defined f) => .start id f.name f.params
  | none => .start id ("#" ++ toString id) []

/-- Puts a finished body in the place of the function it was started for. -/
def define (b : BodyDraft) : StateM ProgramDraft Unit := fun d =>
  ((), { d with slots := d.slots.set b.id (.defined b.finish) })

/-- The functions of the draft, all of which must have been defined. -/
def functions : List FunctionSlot → Except Defect (List Function)
  | [] => .ok []
  | .declared name _ :: _ => .error (.undefined name)
  | .defined f :: slots => (functions slots).map (f :: ·)

/-- The verified program that the draft amounts to. -/
def finish (d : ProgramDraft) : Except Defect Program :=
  match functions d.slots with
  | .error e => .error e
  | .ok fs =>
    let p : Program := ⟨d.globals, fs⟩
    match p.verify with
    | .error e => .error e
    | .ok () => .ok p

end ProgramDraft

end SsaMachine
