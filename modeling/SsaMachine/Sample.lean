import SsaMachine.Draft.Program
import SsaMachine.Engine.Entry

set_option autoImplicit false

/-! # Sample programs

Six small programs, each showing one feature: output, a global variable, arithmetic and a call,
branches with a loop, recursion, and a function that the host implements. A sample is drafted
like any other program and comes with the natives that it imports.
-/

namespace SsaMachine

/-- A program to try out. -/
structure Sample where
  name : String
  summary : String
  program : Except Defect Program
  /-- The natives that the program imports. -/
  natives : List (String × Native)

namespace Sample

open BodyDraft

/-- An operand of type `int`. -/
def int (n : Int) : Operand := .int .int n

/-- A parameter of type `int`. -/
def intParam (name : String) : Param := ⟨name, .int .int⟩

/-- Drafts the body of a declared function and puts it in its place. -/
def draftBody (id : FunctionId) (body : StateM BodyDraft Unit) : StateM ProgramDraft Unit := do
  let d ← get
  ProgramDraft.define (body.run (d.body id)).2

/-- The program that is drafted by the given steps. -/
def assemble (steps : StateM ProgramDraft Unit) : Except Defect Program :=
  (steps.run .empty).2.finish

/-- Prints a greeting and a number. -/
def hello : StateM ProgramDraft Unit := do
  let main ← ProgramDraft.declare "main" []
  draftBody main do
    let _ ← call (.builtin "println") [.string "Hello，凹语言！"]
    let _ ← call (.builtin "println") [.string "The answer is:", int 42]
    ret []

/-- Stores to a global variable and prints it. -/
def globalVariable : StateM ProgramDraft Unit := do
  let i ← ProgramDraft.global "main.i" (.int .int)
  let main ← ProgramDraft.declare "main" []
  draftBody main do
    store (.global i) (int 42)
    let value ← unary .load (.global i)
    let _ ← call (.builtin "println") [.string "The answer is:", .value value]
    ret []

/-- Adds a function `add` that adds its two arguments. -/
def addFunction : StateM ProgramDraft FunctionId := do
  let add ← ProgramDraft.declare "add" [intParam "i", intParam "j"]
  draftBody add do
    let sum ← binary .add (.value 0) (.value 1)
    ret [.value sum]
  return add

/-- Computes with a global variable and the result of a call. -/
def arithmetic : StateM ProgramDraft Unit := do
  let i ← ProgramDraft.global "main.i" (.int .int)
  let add ← addFunction
  let main ← ProgramDraft.declare "main" []
  draftBody main do
    store (.global i) (int 24)
    let base ← unary .load (.global i)
    let sum ← call (.function add) [int 2, int 4]
    let scaled ← binary .mul (int 3) (.value sum)
    let answer ← binary .add (.value base) (.value scaled)
    let _ ← call (.builtin "println") [.string "The answer is:", .value answer]
    ret []

/-- Adds a function `fib` that prints the first `n` Fibonacci numbers, each followed by a space.
The header of its loop carries the state in three phis. -/
def fibonacciLoop : StateM ProgramDraft FunctionId := do
  let fib ← ProgramDraft.declare "fib" [intParam "n"]
  draftBody fib do
    let entry := 0
    let header ← newBlock
    let body ← newBlock
    let done ← newBlock
    jump header
    switchTo header
    let t1 ← phi [⟨entry, int 0⟩]
    let t2 ← phi [⟨entry, int 1⟩]
    let k ← phi [⟨entry, int 0⟩]
    let more ← binary (.compare .lt) (.value k) (.value 0)
    branch (.value more) body done
    switchTo body
    let _ ← call (.builtin "print") [.value t2, .string " "]
    let next ← binary .add (.value t1) (.value t2)
    let kNext ← binary .add (.value k) (int 1)
    jump header
    addPhiEdge t1 ⟨body, .value t2⟩
    addPhiEdge t2 ⟨body, .value next⟩
    addPhiEdge k ⟨body, .value kNext⟩
    switchTo done
    ret []
  return fib

/-- Merges two branches by a phi, and then runs a loop. -/
def branching : StateM ProgramDraft Unit := do
  let add ← addFunction
  let fib ← fibonacciLoop
  let main ← ProgramDraft.declare "main" []
  draftBody main do
    let onTrue ← newBlock
    let merge ← newBlock
    let onFalse ← newBlock
    let sum ← call (.function add) [int 3, int 5]
    let small ← binary (.compare .lt) (.value sum) (int 9)
    branch (.value small) onTrue onFalse
    switchTo onTrue
    let _ ← call (.builtin "println") [.string "branch 0"]
    jump merge
    switchTo onFalse
    let _ ← call (.builtin "println") [.string "branch 1"]
    jump merge
    switchTo merge
    let i ← phi [⟨onTrue, int 13⟩, ⟨onFalse, int 42⟩]
    let _ ← call (.function fib) [.value i]
    ret []

/-- Computes a Fibonacci number by recursion. -/
def recursion : StateM ProgramDraft Unit := do
  let fib ← ProgramDraft.declare "fib" [intParam "n"]
  let main ← ProgramDraft.declare "main" []
  draftBody fib do
    let base ← newBlock
    let more ← newBlock
    let small ← binary (.compare .lt) (.value 0) (int 2)
    branch (.value small) base more
    switchTo base
    ret [.value 0]
    switchTo more
    let n1 ← binary .sub (.value 0) (int 1)
    let n2 ← binary .sub (.value 0) (int 2)
    let a ← call (.function fib) [.value n1]
    let b ← call (.function fib) [.value n2]
    let sum ← binary .add (.value a) (.value b)
    ret [.value sum]
  draftBody main do
    let result ← call (.function fib) [int 10]
    let _ ← call (.builtin "println") [.string "fib(10) =", .value result]
    ret []

/-- Calls a function that the host implements. -/
def importing : StateM ProgramDraft Unit := do
  let myPrint ← ProgramDraft.external "my_print" [⟨"s", .string⟩]
  let main ← ProgramDraft.declare "main" []
  draftBody main do
    let _ ← call (.function myPrint) [.string "Hello, wa!"]
    ret []

/-- All samples, in the order in which they are listed. -/
def all : List Sample :=
  [⟨"hello", "print a greeting and a constant", assemble hello, []⟩,
   ⟨"global-var", "store to a global and print it", assemble globalVariable, []⟩,
   ⟨"binary-ops", "arithmetic on a global and a call result", assemble arithmetic, []⟩,
   ⟨"branch", "if/else merged by a phi, then a fibonacci loop", assemble branching, []⟩,
   ⟨"recursion", "recursive fibonacci", assemble recursion, []⟩,
   ⟨"import-func", "call a body-less function implemented by the host", assemble importing,
    [("my_print", .labelled "my_print" "")]⟩]

/-- The sample with a name. -/
def find? (name : String) : Option Sample :=
  all.find? fun s => s.name == name

/-- Registers the natives that the sample imports. -/
def install (s : Sample) (e : Engine) : Engine :=
  s.natives.foldl (fun e native => e.register native.1 native.2) e

end Sample

end SsaMachine
