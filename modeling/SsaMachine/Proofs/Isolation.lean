import Mathlib.Logic.Relation
import SsaMachine.Proofs.Confinement
import SsaMachine.Proofs.Session

set_option autoImplicit false

/-! # Cells that a run cannot reach

A run that can neither name a global variable nor get at its cell through some chain of addresses
does not depend on it: the variable keeps its value, and with another value in its place the run
would have given the same result, the same output and the same contents of all other cells
(`Engine.unreachable_global_isolated`).

## Two runs in lockstep

The two runs are compared by a function on states. `State.put` replaces the content of one cell;
if that cell is outside the region that a state stays within, a step first and the replacement
afterwards gives the same state as the replacement first and the step afterwards
(`Context.step_put`). Only a load, a store and a native look at the memory at all. A load or a
store uses an address of the region, which is that of another cell, and the natives that print do
not look at cells. That runs stay within the region is known from `Context.within_run`, so whole
runs commute with the replacement as well (`Context.run_put`).

The region is the largest one there is: all addresses from which no chain of addresses leads to the
cell when the run starts.
-/

namespace SsaMachine

/-! ## Replacing the content of a cell -/

/-- The memory with another content in the cell numbered `k`. -/
def Memory.put (m : Memory) (k : Nat) (w : Value) : Memory :=
  ⟨m.cells.setIfInBounds k w⟩

/-- The resources with another content in the cell numbered `k`. -/
def Resources.put (r : Resources) (k : Nat) (w : Value) : Resources :=
  { r with memory := r.memory.put k w }

/-- The state with another content in the cell numbered `k`. -/
def State.put (s : State) (k : Nat) (w : Value) : State :=
  ⟨s.status, s.resources.put k w⟩

/-- The engine with another content in the cell numbered `k`. -/
def Engine.put (e : Engine) (k : Nat) (w : Value) : Engine :=
  { e with resources := e.resources.put k w }

/-- The effect with another content in the cell numbered `k`. -/
def Effect.put (k : Nat) (w : Value) : Effect → Effect
  | proceed f m => .proceed f (m.put k w)
  | goto target => .goto target
  | exit v => .exit v
  | call callee args => .call callee args

section Cells

variable {m : Memory} {k : Nat} {w : Value} {a : Address}

theorem Memory.content?_put_of_ne (h : a ≠ .cell k) : (m.put k w).content? a = m.content? a := by
  cases a with
  | null => rfl
  | cell j =>
      have hj : k ≠ j := fun heq => h (by rw [heq])
      simp [content?, cell?, put, hj]

theorem Memory.read_put (h : a ≠ .cell k) : (m.put k w).read a = m.read a := by
  unfold read
  rw [content?_put_of_ne h]

theorem Memory.write_put (h : a ≠ .cell k) (v : Value) :
    (m.put k w).write a v = (m.write a v).map (·.put k w) := by
  cases a with
  | null => rfl
  | cell j =>
      have hj : k ≠ j := fun heq => h (by rw [heq])
      have hcell : (m.put k w).cell? j = m.cell? j := content?_put_of_ne (a := .cell j) h
      simp only [write, hcell]
      cases m.cell? j with
      | none => rfl
      | some old =>
          dsimp only
          split
          · simp only [put, Except.map]
            rw [Array.setIfInBounds_comm _ _ hj]
          · rfl

theorem UnaryOp.eval_put {R : Region} {v : Value} (hv : v.Within R)
    (hk : .cell k ∉ R.addresses) (op : UnaryOp) : op.eval (m.put k w) v = op.eval m v := by
  unfold eval
  split
  · rename_i a
    exact Memory.read_put (ne_of_mem_of_not_mem (hv a rfl) hk)
  all_goals rfl

end Cells

/-! ## Two runs in lockstep -/

section Lockstep

variable {c : Context} {R : Region} {k : Nat} {w : Value}

/-- An instruction of the region does the same whatever the cell outside holds. -/
theorem Context.execute_put (hR : R.Closed c) {fn : Function} (hfn : fn ∈ R.functions)
    {i : Instr} (hi : fn.Has i) {f : Frame} (hf : f.Within R) (hk : .cell k ∉ R.addresses)
    (m : Memory) : c.execute f (m.put k w) i = (c.execute f m i).map (Effect.put k w) := by
  obtain ⟨dest, op⟩ := i
  cases op with
  | store addr x =>
      simp only [execute]
      cases ha : c.evalAddress f addr with
      | error fault => rfl
      | ok a =>
          cases c.eval f x with
          | error fault => rfl
          | ok v =>
              have hmem := mem_of_evalAddress hR hfn hf hi (.storeAddr _ _) ha
              simp only [bind, Except.bind]
              rw [Memory.write_put (ne_of_mem_of_not_mem hmem hk)]
              cases m.write a v <;> rfl
  | unary op x =>
      simp only [execute]
      cases hv : c.eval f x with
      | error fault => rfl
      | ok v =>
          have hvalue := within_of_eval hR hfn hf hi (.unary _ _) hv
          simp only [bind, Except.bind]
          rw [UnaryOp.eval_put hvalue hk]
          cases op.eval m v with
          | error fault => rfl
          | ok r =>
              dsimp only
              cases f.define dest r <;> rfl
  | binary op x y =>
      simp only [execute]
      cases c.eval f x with
      | error fault => rfl
      | ok l =>
          cases c.eval f y with
          | error fault => rfl
          | ok r =>
              simp only [bind, Except.bind]
              cases op.eval l r with
              | error fault => rfl
              | ok v =>
                  dsimp only
                  cases f.define dest v <;> rfl
  | call callee args =>
      simp only [execute]
      cases c.evalAll f args <;> rfl
  | convert ty x => rfl
  | phi edges =>
      simp only [execute]
      cases c.selectEdge f edges with
      | error fault => rfl
      | ok v =>
          simp only [bind, Except.bind]
          cases f.define dest v <;> rfl
  | ret results =>
      simp only [execute]
      cases c.evalResult f results <;> rfl
  | branch x onTrue onFalse =>
      simp only [execute]
      cases c.evalCondition f x <;> rfl
  | jump target => rfl

theorem Resources.callNative_put {r : Resources} (hr : r.registry.All Native.OnlyWrites)
    (name : String) (args : List Value) :
    (r.put k w).callNative name args =
      ((r.callNative name args).1, (r.callNative name args).2.put k w) := by
  simp only [callNative, put]
  cases he : r.registry.find? name with
  | none => rfl
  | some e =>
      obtain ⟨answer, s', -, hrespond⟩ :=
        hr e (List.mem_of_find?_eq_some he) (e.calls + 1) args r.sink
      simp only [hrespond]

theorem State.deliver_put (r : Resources) (v : Value) (ws : List Caller) :
    State.deliver (r.put k w) v ws = (State.deliver r v ws).put k w := by
  cases ws with
  | nil => rfl
  | cons caller ws =>
      simp only [deliver]
      cases caller.resume v <;> rfl

theorem Context.invoke_put {r : Resources} (hr : r.registry.All Native.OnlyWrites)
    (callee : Callee) (args : List Value) (caller : Caller) (ws : List Caller) :
    c.invoke (r.put k w) callee args caller ws = (c.invoke r callee args caller ws).put k w := by
  simp only [invoke]
  cases c.program.target callee with
  | error fault => rfl
  | ok t =>
      cases t with
      | native name =>
          simp only [Resources.callNative_put hr]
          cases r.callNative name args with
          | mk answer r' =>
              cases answer with
              | error fault => rfl
              | ok v => exact State.deliver_put r' v (caller :: ws)
      | body f =>
          dsimp only
          cases Activation.enter f args <;> rfl

theorem Context.stepInstr_put (hR : R.Closed c) (hk : .cell k ∉ R.addresses) {r : Resources}
    (hr : r.registry.All Native.OnlyWrites) {fn : Function} (hfn : fn ∈ R.functions) {i : Instr}
    (hi : fn.Has i) {f : Frame} (hf : f.Within R) (block : BlockId) (index : Nat)
    (ws : List Caller) :
    c.stepInstr (r.put k w) fn f block index i ws =
      (c.stepInstr r fn f block index i ws).put k w := by
  have hexecute : c.execute f (r.put k w).memory i =
      (c.execute f r.memory i).map (Effect.put k w) := execute_put hR hfn hi hf hk r.memory
  simp only [stepInstr, hexecute]
  cases c.execute f r.memory i with
  | error fault => rfl
  | ok e =>
      cases e with
      | call callee args => exact invoke_put hr callee args _ ws
      | _ => rfl

/-- **A step of a run that stays within a region commutes with replacing the content of a cell
outside.** -/
theorem Context.step_put (hR : R.Closed c) (hk : .cell k ∉ R.addresses) {m₀ : Memory}
    {s : State} (hs : s.Within R m₀) : c.step (s.put k w) = (c.step s).put k w := by
  obtain ⟨status, r⟩ := s
  cases status with
  | halted result => rfl
  | running a ws =>
      obtain ⟨⟨hfn, hf⟩, -⟩ := hs.calls a ws rfl
      obtain ⟨fn, f, point⟩ := a
      show c.step ⟨.running ⟨fn, f, point⟩ ws, r.put k w⟩ =
        (c.step ⟨.running ⟨fn, f, point⟩ ws, r⟩).put k w
      simp only [step]
      cases f.block with
      | none => exact State.deliver_put r f.result ws
      | some id =>
          dsimp only
          cases hb : fn.block? id with
          | none => rfl
          | some b =>
              cases point with
              | head =>
                  dsimp only
                  cases c.resolvePhis fn f b <;> rfl
              | instr index =>
                  dsimp only
                  cases hindex : b.instrs[index]? with
                  | none => rfl
                  | some i =>
                      have hi : fn.Has i :=
                        ⟨b, List.mem_of_getElem? hb, List.mem_of_getElem? hindex⟩
                      exact stepInstr_put hR hk hs.resources.natives hfn hi hf id index ws

theorem Context.run_put (hR : R.Closed c) (hk : .cell k ∉ R.addresses) {m₀ : Memory} (n : Nat)
    {s : State} (hs : s.Within R m₀) : c.run n (s.put k w) = (c.run n s).put k w := by
  induction n generalizing s with
  | zero => rfl
  | succ n ih =>
      obtain ⟨status, r⟩ := s
      cases status with
      | halted result => rfl
      | running a ws =>
          have hnext : (c.step ⟨.running a ws, r⟩).Within R m₀ :=
            (c.step_of_running a ws r).within hR hs
          have hstep := step_put (w := w) hR hk hs
          calc c.run (n + 1) (State.put ⟨.running a ws, r⟩ k w)
              = c.run n (c.step (State.put ⟨.running a ws, r⟩ k w)) := rfl
            _ = c.run n ((c.step ⟨.running a ws, r⟩).put k w) := by rw [hstep]
            _ = (c.run n (c.step ⟨.running a ws, r⟩)).put k w := ih hnext

theorem Context.start_put {r : Resources} (hr : r.registry.All Native.OnlyWrites)
    (callee : Callee) (args : List Value) :
    c.start (r.put k w) callee args = (c.start r callee args).put k w := by
  simp only [start]
  cases c.program.target callee with
  | error fault => rfl
  | ok t =>
      cases t with
      | native name =>
          simp only [Resources.callNative_put hr]
          cases r.callNative name args with
          | mk answer r' => cases answer <;> rfl
      | body f =>
          dsimp only
          cases Activation.enter f args <;> rfl

end Lockstep

/-! ## What a run can reach -/

/-- The cell at `a` holds the address `b`. -/
def Memory.Links (m : Memory) (a b : Address) : Prop :=
  m.content? a = some (.address b)

/-- Following addresses from `a`, any number of times, leads to `b`. -/
def Memory.LeadsTo (m : Memory) : Address → Address → Prop :=
  Relation.ReflTransGen m.Links

/-- The function numbered `id` has an instruction that calls the function numbered `id'`. -/
def Program.CallsTo (p : Program) (id id' : FunctionId) : Prop :=
  ∃ f, p.function? id = some f ∧ f.CallsTo id'

/-- The function `f` can be reached from the one numbered `id` through call instructions. -/
def Program.Involves (p : Program) (id : FunctionId) (f : Function) : Prop :=
  ∃ id', Relation.ReflTransGen p.CallsTo id id' ∧ p.function? id' = some f

/-- The addresses that a run of the function numbered `id` is given: those among the arguments,
and those of the global variables that the function, or one that it can reach, names. -/
inductive Engine.Root (e : Engine) (id : FunctionId) (args : List Value) : Address → Prop
  | argument {a : Address} (h : .address a ∈ args) : Root e id args a
  | global {f : Function} {g : GlobalId} {x : Global} {a : Address}
      (hf : e.program.Involves id f) (hg : f.Names g) (hx : e.program.global? g = some x)
      (ha : e.globals.address x.name = .ok a) : Root e id args a

/-- What is apart from the address `a`: all addresses that do not lead there. -/
def Engine.regionApart (e : Engine) (id : FunctionId) (a : Address) : Region where
  addresses := { b | ¬ e.resources.memory.LeadsTo b a }
  functions := { f | e.program.Involves id f }

section Reachability

variable {e : Engine} {id : FunctionId} {args : List Value} {a : Address}

theorem Engine.not_mem_regionApart (e : Engine) (id : FunctionId) (a : Address) :
    a ∉ (e.regionApart id a).addresses :=
  fun h => h .refl

theorem Engine.closed_regionApart (hnull : a ≠ .null)
    (hroots : ∀ b, e.Root id args b → ¬ e.resources.memory.LeadsTo b a) :
    (e.regionApart id a).Closed e.context where
  null := by
    intro hleads
    rcases hleads.cases_head with heq | ⟨b, hlink, -⟩
    · exact hnull heq.symm
    · cases hlink
  globals := by
    intro f hf g b hnames hb
    simp only [Context.globalAddress] at hb
    split at hb
    · rename_i x hx
      exact hroots b (.global hf hnames hx hb)
    · cases hb
  callees := by
    rintro f ⟨id', hid', hf⟩ id'' g hcalls hg
    exact ⟨id'', hid'.tail ⟨f, hf, hcalls⟩, hg⟩

theorem Engine.memory_within_regionApart (e : Engine) (id : FunctionId) (a : Address) :
    e.resources.memory.Within (e.regionApart id a) := by
  rintro b hb v hv d rfl hleads
  exact hb (.head hv hleads)

/-- A run starts apart from `a` if it is given no address that leads there. -/
theorem Engine.start_within_regionApart (e : Engine)
    (hnatives : e.resources.registry.All Native.OnlyWrites)
    (hroots : ∀ b, e.Root id args b → ¬ e.resources.memory.LeadsTo b a) :
    (e.context.start e.resources (.function id) args).Within (e.regionApart id a)
      e.resources.memory := by
  refine Context.within_start ⟨e.memory_within_regionApart id a, .refl _ _, hnatives⟩
    (fun f hf => ⟨id, .refl, hf⟩) ?_
  rintro v hv b rfl
  exact hroots b (.argument hv)

/-- A closed region that holds what a run is given, but not `a`, shows that the run is given no
address that leads to `a`. -/
theorem Engine.not_leadsTo_of_region {R : Region} (hR : R.Closed e.context)
    (hm : e.resources.memory.Within R)
    (hid : ∀ f, e.program.function? id = some f → f ∈ R.functions)
    (hargs : ∀ v ∈ args, v.Within R) (ha : a ∉ R.addresses) :
    ∀ b, e.Root id args b → ¬ e.resources.memory.LeadsTo b a := by
  have hfunctions : ∀ f, e.program.Involves id f → f ∈ R.functions := by
    rintro f ⟨id', hid', hf⟩
    induction hid' generalizing f with
    | refl => exact hid f hf
    | tail _ hcalls ih =>
        obtain ⟨g, hg, hcall⟩ := hcalls
        exact hR.callees g (ih g hg) _ f hcall hf
  intro b hroot hleads
  have hb : b ∈ R.addresses := by
    cases hroot with
    | argument h => exact hargs _ h b rfl
    | @global f g x _ hf hg hx haddr =>
        refine hR.globals f (hfunctions f hf) g b hg ?_
        simp only [Context.globalAddress, Engine.context, hx, haddr]
  -- no chain of addresses leaves the region
  have hchain : ∀ d, e.resources.memory.LeadsTo b d → d ∈ R.addresses := by
    intro d hd
    induction hd with
    | refl => exact hb
    | tail _ hlink ih => exact hm _ ih _ hlink _ rfl
  exact ha (hchain a hleads)

end Reachability

/-! ## Isolation -/

/-- The second outcome of a call differs from the first at most in what the cell at `a` holds. -/
structure Engine.AgreeExcept (a : Address)
    (first second : Option (Except Failure Value) × Engine) : Prop where
  result : second.1 = first.1
  output : second.2.resources.sink = first.2.resources.sink
  cells : ∀ b, b ≠ a →
    second.2.resources.memory.content? b = first.2.resources.memory.content? b

theorem Native.onlyWrites_of_prints {n : Native} (h : n = .print ∨ n = .println) :
    n.OnlyWrites := by
  rcases h with rfl | rfl
  · exact onlyWrites_writing _ _
  · exact onlyWrites_writing _ _

theorem Engine.global_congr {e e' : Engine} {name : String} {a : Address}
    (hglobals : e'.globals = e.globals) (ha : e.globals.address name = .ok a)
    (hcontent : e'.resources.memory.content? a = e.resources.memory.content? a) :
    e'.global name = e.global name := by
  have hread : e'.globals.read e'.resources.memory name =
      e.globals.read e.resources.memory name := by
    simp only [Globals.read, hglobals, ha, bind, Except.bind, Memory.read, hcontent]
  simp only [Engine.global, hread]

/-- A call that is given no address leading to a cell does the same whatever the cell holds. -/
theorem Engine.call_put {e : Engine} (hnatives : e.resources.registry.All Native.OnlyWrites)
    {id : FunctionId} {args : List Value} {k : Nat} (w : Value)
    (hroots : ∀ b, e.Root id args b → ¬ e.resources.memory.LeadsTo b (.cell k)) (fuel : Nat) :
    (e.put k w).call fuel (.function id) args =
      ((e.call fuel (.function id) args).1, (e.call fuel (.function id) args).2.put k w) := by
  have hR := closed_regionApart (by simp) hroots
  have hstart := e.start_within_regionApart hnatives hroots
  have hrun : e.context.run fuel (e.context.start (e.resources.put k w) (.function id) args) =
      (e.context.run fuel (e.context.start e.resources (.function id) args)).put k w := by
    rw [Context.start_put hnatives,
      Context.run_put hR (e.not_mem_regionApart id (.cell k)) fuel hstart]
  exact congrArg (fun s : State => (s.result?, { e with resources := s.resources })) hrun

/-- A call that is given no address leading to a cell leaves it as it is. -/
theorem Engine.content?_call {e : Engine}
    (hnatives : e.resources.registry.All Native.OnlyWrites) {id : FunctionId}
    {args : List Value} {a : Address} (hnull : a ≠ .null)
    (hroots : ∀ b, e.Root id args b → ¬ e.resources.memory.LeadsTo b a) (fuel : Nat) :
    (e.call fuel (.function id) args).2.resources.memory.content? a =
      e.resources.memory.content? a := by
  have hrun := Context.within_run (closed_regionApart hnull hroots)
    (e.start_within_regionApart hnatives hroots) fuel
  exact hrun.resources.outside a (e.not_mem_regionApart id a)

/-- Assigning a value of its type to a created variable replaces the content of its cell. -/
theorem Engine.setGlobal_eq_put {e : Engine} {x : Global} {k : Nat} {v w : Value}
    (ha : e.globals.address x.name = .ok (.cell k))
    (hv : e.resources.memory.content? (.cell k) = some v) (hadmits : x.ty.admits v = true)
    (hw : x.ty.admits w = true) :
    e.setGlobal x.name w = (.ok (), e.put k w) := by
  have hkind : v.sameKind w = true := by
    rw [Ty.admits_iff] at hadmits hw
    exact Value.sameKind_iff.mpr (Option.some.inj (hadmits.symm.trans hw))
  have hwrite : e.globals.write e.resources.memory x.name w = .ok (e.resources.memory.put k w) := by
    simp only [Globals.write, ha, bind, Except.bind]
    exact Memory.write_eq_ok_iff.mpr ⟨k, v, rfl, hv, hkind, rfl⟩
  simp only [Engine.setGlobal, hwrite]
  rfl

/-- **A run does not depend on a global variable that it cannot reach.** Let the global variables
of the program have been created, let only the natives that print be registered, and let no chain
of addresses lead from the arguments, or from the global variables that the called function and
those reachable from it name, to the cell of the variable `x`; in particular, none of them
names `x`. Then a run of the function leaves the value of `x` as it is, whether it succeeds or
fails, and if any other value of its type is assigned to `x` beforehand, the run has the
same result and the same output, and leaves the same contents in all other cells. -/
theorem Engine.unreachable_global_isolated {e : Engine}
    (hnatives : e.resources.registry.All fun n => n = .print ∨ n = .println)
    (htyped : e.globals.Typed e.program.globals e.resources.memory)
    (id : FunctionId) (args : List Value) {x : Global} {a : Address}
    (hx : x ∈ e.program.globals) (ha : e.globals.address x.name = .ok a)
    (hroots : ∀ b, e.Root id args b → ¬ e.resources.memory.LeadsTo b a) (fuel : Nat) :
    (e.call fuel (.function id) args).2.global x.name = e.global x.name ∧
      ∀ w, x.ty.admits w = true → ∃ e', e.setGlobal x.name w = (.ok (), e') ∧
        AgreeExcept a (e.call fuel (.function id) args) (e'.call fuel (.function id) args) := by
  obtain ⟨a', v, ha', hv, hadmits⟩ := htyped x hx
  have haddr : a' = a := Except.ok.inj (ha'.symm.trans ha)
  subst haddr
  cases a' with
  | null => cases hv
  | cell k =>
      have hwrites : e.resources.registry.All Native.OnlyWrites :=
        fun n hn => Native.onlyWrites_of_prints (hnatives n hn)
      constructor
      · exact global_congr rfl ha (content?_call hwrites (by simp) hroots fuel)
      · intro w hw
        refine ⟨e.put k w, setGlobal_eq_put ha hv hadmits hw, ?_⟩
        rw [call_put hwrites w hroots]
        exact ⟨rfl, rfl, fun b hb => Memory.content?_put_of_ne hb⟩

/-- A secret that only the last function names, and a pointer to a total. The first function
stores through the pointer that it is given and calls the second, which names the total. -/
def sealedProgram : Program where
  globals := [⟨"secret", .int .int⟩, ⟨"link", .pointer (.int .int)⟩, ⟨"total", .int .int⟩]
  functions :=
    [⟨"main", [⟨"p", .pointer (.pointer (.int .int))⟩],
      [⟨0,
        [⟨some 1, .unary .load (.value 0)⟩,
         ⟨none, .store (.value 1) (.int .int 5)⟩,
         ⟨some 2, .call (.function 1) [.value 1]⟩,
         ⟨some 3, .call (.builtin "println") [.value 1, .value 2]⟩,
         ⟨none, .ret [.value 2]⟩], [], []⟩], 0, 4⟩,
     ⟨"double", [⟨"q", .pointer (.int .int)⟩],
      [⟨0,
        [⟨some 1, .unary .load (.global 2)⟩,
         ⟨some 2, .binary .add (.value 1) (.value 1)⟩,
         ⟨none, .store (.value 0) (.value 2)⟩,
         ⟨none, .ret [.value 2]⟩], [], []⟩], 0, 3⟩,
     ⟨"reveal", [],
      [⟨0, [⟨some 0, .unary .load (.global 0)⟩, ⟨none, .ret [.value 0]⟩], [], []⟩], 0, 1⟩]

/-- An engine for that program, in which the pointer leads to the total. -/
def sealedEngine : Engine :=
  ((Engine.new sealedProgram .unlimited).setUpGlobals.2.setGlobal "link" (.address (.cell 2))).2

/-- What a run of the first function stays within. -/
def sealedRegion : Region where
  addresses := {.null, .cell 1, .cell 2}
  functions := {f | f ∈ sealedProgram.functions.take 2}

/-- The first two functions name the total and call the second, and nothing else. -/
theorem sealed_has {f : Function} (hf : f ∈ sealedProgram.functions.take 2) {i : Instr}
    (hi : f.Has i) :
    (∀ g, i.op.Uses (.global g) → g = 2) ∧ ∀ id xs, i.op = .call (.function id) xs → id = 1 := by
  obtain ⟨b, hb, hi⟩ := hi
  simp only [← Operation.mem_operands_iff]
  simp only [sealedProgram, List.take_succ_cons, List.take_zero, List.mem_cons,
    List.not_mem_nil, or_false] at hf
  rcases hf with rfl | rfl
  all_goals
    rw [List.mem_singleton.mp hb] at hi
    simp only [List.mem_cons, List.not_mem_nil, or_false] at hi
  · rcases hi with rfl | rfl | rfl | rfl | rfl <;> simp [Operation.operands, Operand.int]
  · rcases hi with rfl | rfl | rfl | rfl <;> simp [Operation.operands]

theorem closed_sealedRegion : sealedRegion.Closed sealedEngine.context where
  null := .inl rfl
  globals := by
    rintro f hf g a ⟨i, hi, hx⟩ ha
    cases (sealed_has hf hi).1 g hx
    cases ha
    exact .inr (.inr rfl)
  callees := by
    rintro f hf id g ⟨i, xs, hi, hop⟩ hg
    cases (sealed_has hf hi).2 id xs hop
    cases hg
    exact List.mem_cons_of_mem _ List.mem_cons_self

theorem Engine.unreachable_global_isolated_sealedProgram :
    (sealedEngine.call 30 (.function 0) [.address (.cell 1)]).1 =
        some (.ok (.int (.ofInt .int 10))) ∧
      (sealedEngine.call 30 (.function 0) [.address (.cell 1)]).2.global "secret" =
        sealedEngine.global "secret" ∧
      ∀ w, (Ty.int .int).admits w = true → ∃ e, sealedEngine.setGlobal "secret" w = (.ok (), e) ∧
        AgreeExcept (.cell 0) (sealedEngine.call 30 (.function 0) [.address (.cell 1)])
          (e.call 30 (.function 0) [.address (.cell 1)]) := by
  refine ⟨rfl, unreachable_global_isolated (e := sealedEngine) ?_ ?_ 0 [.address (.cell 1)]
    (x := ⟨"secret", .int .int⟩) (a := .cell 0) List.mem_cons_self rfl ?_ 30⟩
  · intro n hn
    have hentries : sealedEngine.resources.registry.entries =
        [⟨"print", .print, 0⟩, ⟨"println", .println, 0⟩] := rfl
    simp only [hentries, List.mem_cons, List.not_mem_nil, or_false] at hn
    rcases hn with rfl | rfl
    · exact .inl rfl
    · exact .inr rfl
  · intro x hx
    have hglobals : sealedEngine.program.globals = sealedProgram.globals := rfl
    simp only [hglobals, sealedProgram, List.mem_cons, List.not_mem_nil, or_false] at hx
    rcases hx with rfl | rfl | rfl
    · exact ⟨.cell 0, .int (.ofInt .int 0), rfl, rfl, rfl⟩
    · exact ⟨.cell 1, .address (.cell 2), rfl, rfl, rfl⟩
    · exact ⟨.cell 2, .int (.ofInt .int 0), rfl, rfl, rfl⟩
  · refine not_leadsTo_of_region closed_sealedRegion ?_ ?_ ?_ ?_
    · rintro b (rfl | rfl | rfl) v hv <;> cases hv <;> rintro a h <;> cases h
      exact .inr (.inr rfl)
    · intro f hf
      cases hf
      exact List.mem_cons_self
    · intro v hv
      rw [List.mem_singleton.mp hv]
      rintro a h
      cases h
      exact .inr (.inl rfl)
    · rintro (h | h | h) <;> cases h

end SsaMachine
