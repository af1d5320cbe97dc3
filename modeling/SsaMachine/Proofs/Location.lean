import SsaMachine.Proofs.Dominance
import Mathlib.Data.List.Forall2

set_option autoImplicit false

/-! # Where a failure is located

A failure that a run of a verified program ends with carries a location. This file says what
that location is worth (`Engine.failure_blames_innermost`):

* it names an instruction of the program;
* the fault is one that this instruction can be the cause of (`Program.Fits`), unless the
  instruction calls a native, whose faults are the host's;
* the instruction is the one that the innermost call was executing when the run ended. A call
  that waits is never blamed for what goes wrong above it.

## Why the first location is the right one

A fault gets its location in three places: in the phi group, at the instruction, and at the call
instruction of the caller when the callee has added none. The last of these would blame a waiting
call. By `Context.blames_of_raises` it does not happen: whatever a call of a verified program
raises, one of *its own* instructions is to blame, so the location is there before the caller is
asked for one (`Context.Blames.locate`). It remains to look at the last step of the run, where
the call on top of the stack raises the failure (`Context.raises_of_step`).
-/

namespace SsaMachine

/-! ## Faults and the instructions that they fit -/

/-- The operation calls a native: by its name, or through a function without a body. -/
def Program.CallsNative (p : Program) (op : Operation) : Prop :=
  ∃ callee xs name, op = .call callee xs ∧ p.target callee = .ok (.native name)

/-- The operation calls `g`, a function with a body, with the arguments `xs`. -/
def Program.CallsBody (p : Program) (op : Operation) (g : Function) (xs : List Operand) : Prop :=
  ∃ callee, op = .call callee xs ∧ p.target callee = .ok (.body g)

/-- The operation can be to blame for the fault: it is of the sort that goes wrong in this way,
it uses the operand that has no value, or it passes the argument that was refused. Other faults
fit no operation. -/
def Program.Fits (p : Program) (op : Operation) : Fault → Prop
  | .divisionByZero => ∃ x y, op = .binary .quo x y ∨ op = .binary .rem x y
  | .invalidBinary o _ => ∃ x y, op = .binary o x y
  | .invalidUnary o _ => ∃ x, op = .unary o x
  | .nilDereference => (∃ a v, op = .store a v) ∨ ∃ x, op = .unary .load x
  | .typeMismatch .store _ _ => ∃ a v, op = .store a v
  | .typeMismatch (.binary o) _ _ => ∃ x y, op = .binary o x y
  | .typeMismatch .branch _ _ => ∃ x onTrue onFalse, op = .branch x onTrue onFalse
  | .noPhiEdge _ => ∃ edges, op = .phi edges
  | .multipleResults n => ∃ xs, op = .ret xs ∧ xs.length = n
  | .unsupportedConversion ty => ∃ x, op = .convert ty x
  | .argumentType function param ty _ =>
    ∃ g xs, p.CallsBody op g xs ∧ g.name = function ∧ ⟨param, ty⟩ ∈ g.params
  | .unboundValue v => op.Uses (.value v)
  | .unsupportedConstant literal ty =>
    ∃ k, op.Uses (.constant k) ∧ k.literal = literal ∧ k.ty.defaulted = ty
  | .unknownGlobal name => ∃ id x, op.Uses (.global id) ∧ p.global? id = some x ∧ x.name = name
  | _ => False

/-- The faults that an operation raises by itself fit it. -/
theorem Operation.CanRaise.fits {op : Operation} {fault : Fault} (h : op.CanRaise fault)
    (p : Program) : p.Fits op fault := by
  cases h with
  | storeNil a v => exact .inl ⟨a, v, rfl⟩
  | storeMismatch a v l r => exact ⟨a, v, rfl⟩
  | loadNil x => exact .inr ⟨x, rfl⟩
  | invalidUnary op x k => exact ⟨x, rfl⟩
  | division x y hop =>
      rcases hop with rfl | rfl
      · exact ⟨x, y, .inl rfl⟩
      · exact ⟨x, y, .inr rfl⟩
  | binaryMismatch op x y l r => exact ⟨x, y, rfl⟩
  | invalidBinary op x y k => exact ⟨x, y, rfl⟩
  | conversion ty x => exact ⟨x, rfl⟩
  | manyResults xs => exact ⟨xs, rfl, rfl⟩
  | branchMismatch x onTrue onFalse k => exact ⟨x, onTrue, onFalse, rfl⟩

/-- The fault of an operand fits every operation that uses the operand. -/
theorem Program.InstrWellFormed.fits_of_eval {c : Context} {f : Function} {b : Block}
    {i : Instr} {g : Frame} {x : Operand} {fault : Fault}
    (hi : c.program.InstrWellFormed f b i) (hx : i.op.Uses x)
    (h : c.eval g x = .error fault) : c.program.Fits i.op fault := by
  rcases Context.eval_eq_error h with ⟨v, rfl, -, rfl⟩ | ⟨k, rfl, rfl⟩ | ⟨id, rfl, hfault⟩
  · exact hx
  · exact ⟨k, hx, rfl, rfl⟩
  · -- the variable is declared, so it is its name that leads to no cell
    obtain ⟨y, hy⟩ := hi.globals id hx
    simp only [Context.globalAddress, hy] at hfault
    rw [Globals.address_eq_error hfault]
    exact ⟨id, y, hx, hy, rfl⟩

/-! ## The last step of a run -/

/-- A run that ends does so in a step from one of its states. -/
theorem Context.exists_last_step {c : Context} {n : Nat} {a : Activation} {ws : List Caller}
    {r : Resources} {result : Except Failure Value}
    (h : (c.run n ⟨.running a ws, r⟩).result? = some result) :
    ∃ k a' ws' r', c.run k ⟨.running a ws, r⟩ = ⟨.running a' ws', r'⟩ ∧
      (c.step ⟨.running a' ws', r'⟩).result? = some result := by
  induction n generalizing a ws r with
  | zero => cases h
  | succ n ih =>
      have hrun : ∀ k, c.run (k + 1) ⟨.running a ws, r⟩ = c.run k (c.step ⟨.running a ws, r⟩) :=
        fun _ => rfl
      rw [hrun] at h
      cases hs : c.step ⟨.running a ws, r⟩ with
      | mk status r₁ =>
          rw [hs] at h
          cases status with
          | halted result' =>
              -- the first step ends the run, and the other steps change nothing
              have hstay : c.run n ⟨.halted result', r₁⟩ = ⟨.halted result', r₁⟩ := by
                cases n <;> rfl
              rw [hstay] at h
              exact ⟨0, a, ws, r, rfl, by rw [hs]; exact h⟩
          | running a₁ ws₁ =>
              obtain ⟨k, a', ws', r', hk, hlast⟩ := ih h
              exact ⟨k + 1, a', ws', r', by rw [hrun, hs]; exact hk, hlast⟩

/-- Handing over a result ends a run with a failure only if a waiting call cannot take it. -/
theorem State.deliver_result?_eq_error {r : Resources} {v : Value} {ws : List Caller}
    {failure : Failure} (h : (State.deliver r v ws).result? = some (.error failure)) :
    ∃ w ∈ ws, w.resume v = .error failure := by
  cases ws with
  | nil => cases h
  | cons w ws =>
      refine ⟨w, List.mem_cons_self, ?_⟩
      cases hv : w.resume v with
      | error failure' =>
          simp only [deliver, hv, halt, result?, Option.some.injEq, Except.error.injEq] at h
          rw [h]
      | ok top =>
          simp only [deliver, hv] at h
          cases h

/-- The call that raises a failure stands at the position that the failure is located at, or at
the head of a block. -/
theorem Context.Raises.point {c : Context} {r r' : Resources} {a : Activation}
    {failure : Failure} {l : Location} (h : c.Raises r a failure r')
    (hl : failure.location = some l) : a.point = .head ∨ a.point = .instr l.index := by
  cases h with
  | block hid hb => cases hl
  | phis hid hb hp hphis => exact .inl hp
  | ended hid hb hp hk =>
      cases hl
      exact .inr hp
  | instr hat hex =>
      cases hl
      exact .inr hat.point
  | callee hc ht =>
      cases hc with
      | intro hat hex =>
          cases hl
          exact .inr hat.point
  | native hc ht hn =>
      cases hc with
      | intro hat hex =>
          cases hl
          exact .inr hat.point
  | entry hc ht he =>
      cases hc with
      | intro hat hex =>
          cases hl
          exact .inr hat.point

section LastStep

variable {c : Context} (hp : c.program.WellFormed)
include hp

/-- **The step that ends a run with a failure is one in which the call on top raises it.** No
other call adds a location to it. -/
theorem Context.raises_of_step {r : Resources} {a : Activation} {ws : List Caller}
    {failure : Failure} (ha : c.Lives a) (hws : ∀ w ∈ ws, c.Waits w)
    (h : (c.step ⟨.running a ws, r⟩).result? = some (.error failure)) :
    ∃ r', c.Raises r a failure r' := by
  generalize hs : c.step ⟨.running a ws, r⟩ = s at h
  have hstep : c.Step a ws r s := hs ▸ c.step_of_running a ws r
  cases hstep with
  | move hm => cases h
  | call hc ht he => cases h
  | native hc ht hn =>
      obtain ⟨w, hw, hfail⟩ := State.deliver_result?_eq_error h
      rcases List.mem_cons.mp hw with rfl | hmem
      · exact absurd hfail (resume_ne_error hp ⟨_, _, _, _, ha, hc⟩ _ _)
      · exact absurd hfail (resume_ne_error hp (hws w hmem) _ _)
  | ret hb =>
      obtain ⟨w, hw, hfail⟩ := State.deliver_result?_eq_error h
      exact absurd hfail (resume_ne_error hp (hws w hw) _ _)
  | @fail failure' r' hraise =>
      have hlocated := (blames_of_raises hp ha hraise).locate (ws.head?.map Caller.location)
      have heq : failure'.locate (ws.head?.map Caller.location) = failure :=
        Except.error.inj (Option.some.inj h)
      rw [hlocated] at heq
      exact ⟨r', heq ▸ hraise⟩

end LastStep

/-! ## What a location is worth -/

/-- The location is that of the instruction `i` of the block `b` of `g`, where `g` is the function
that the program has under the name in the location. -/
structure Program.Locates (p : Program) (l : Location) (g : Function) (b : Block) (i : Instr) :
    Prop where
  function : ∃ id, p.functionId? l.function = some id ∧ p.function? id = some g
  block : g.block? l.block = some b
  instr : b.instrs[l.index]? = some i

/-- The call is executing the instruction `i` of its function, at the location `l`: it stands at
the instruction, or it is executing the phis at the head of the block and `i` is a phi. -/
structure Activation.Executes (a : Activation) (l : Location) (i : Instr) : Prop where
  block : a.frame.block = some l.block
  point : a.point = .instr l.index ∨ a.point = .head ∧ i.op.isPhi = true

/-- Why a call of a function with a body can be to blame itself: an argument is not of the
declared type, or an operand has no value in the frame. -/
def Context.RefusesCall (c : Context) (f : Frame) (g : Function) (xs : List Operand)
    (fault : Fault) : Prop :=
  (∃ param ∈ g.params, ∃ k, fault = .argumentType g.name param.name param.ty k) ∨
    ∃ x ∈ xs, c.eval f x = .error fault

/-- What holds of an instruction that the call `a` is executing and that is to blame. -/
structure Context.Explains (c : Context) (a : Activation) (l : Location) (i : Instr)
    (fault : Fault) : Prop where
  located : ∃ b, c.program.Locates l a.function b i
  executes : a.Executes l i
  fits : ¬ c.program.CallsNative i.op → c.program.Fits i.op fault
  calls : ∀ g xs, c.program.CallsBody i.op g xs → c.RefusesCall a.frame g xs fault

/-- A callee is a native or a function with a body, not both. -/
theorem Program.CallsBody.not_callsNative {p : Program} {op : Operation} {g : Function}
    {xs : List Operand} (h : p.CallsBody op g xs) : ¬ p.CallsNative op := by
  rintro ⟨callee, ys, name, hop, ht⟩
  obtain ⟨callee', hop', ht'⟩ := h
  rw [hop] at hop'
  cases hop'
  rw [ht] at ht'
  cases ht'

/-- The instruction that a call blames explains the failure. -/
theorem Context.Blames.explains {c : Context} {r : Resources} {a : Activation}
    {failure : Failure} (hp : c.program.WellFormed) (ha : c.Lives a) (h : c.Blames r a failure)
    (hpoint : ∀ l, failure.location = some l → a.point = .head ∨ a.point = .instr l.index) :
    ∃ l i, failure.location = some l ∧ c.Explains a l i failure.fault := by
  obtain ⟨f, args, hmem, hbody, hlife⟩ := ha
  have hf := hp.bodies f hmem hbody
  have hplaced := hlife.placed hf
  have hfun : a.function = f := hplaced.function_eq
  have hwell : ∀ {id : BlockId} {b : Block} {k : Nat} {i : Instr},
      a.function.block? id = some b → b.instrs[k]? = some i →
      c.program.InstrWellFormed f b i :=
    fun hb hk => hf.instrs _ (hplaced.mem_blocks hb) _ (List.mem_of_getElem? hk)
  have hloc : ∀ {id : BlockId} {b : Block} {k : Nat} {i : Instr},
      a.function.block? id = some b → b.instrs[k]? = some i →
      ∃ b, c.program.Locates ⟨a.function.name, id, k⟩ a.function b i := by
    intro id b k i hb hk
    obtain ⟨fid, hname, hfid⟩ := hp.functionId?_name hmem
    exact ⟨b, ⟨fid, hfun ▸ hname, hfun ▸ hfid⟩, hb, hk⟩
  cases h with
  | operand hat hop hx hev =>
      have hi := hwell hat.block hat.instr
      refine ⟨_, _, rfl, hloc hat.block hat.instr, ⟨hat.current, .inl hat.point⟩,
        fun _ => hi.fits_of_eval hx hev, ?_⟩
      rintro g xs ⟨callee, hcall, -⟩
      rw [hcall] at hx
      cases hx with
      | callArg _ hmem' => exact .inr ⟨_, hmem', hev⟩
  | @edge id b k i edges fault hid hb hk hop hsel =>
      refine ⟨_, i, rfl, hloc hb hk, ⟨hid, ?_⟩, fun _ => ?_, ?_⟩
      · rcases hpoint _ rfl with hhead | hinstr
        · exact .inr ⟨hhead, by rw [hop]; rfl⟩
        · exact .inl hinstr
      · rcases selectEdge_eq_error hsel with ⟨e, he, -, hev⟩ | ⟨-, rfl⟩
        · exact (hwell hb hk).fits_of_eval (by rw [hop]; exact .phiEdge he) hev
        · exact ⟨edges, hop⟩
      · rintro g xs ⟨callee, hcall, -⟩
        rw [hop] at hcall
        cases hcall
  | own hat hraise =>
      refine ⟨_, _, rfl, hloc hat.block hat.instr, ⟨hat.current, .inl hat.point⟩,
        fun _ => hraise.fits _, ?_⟩
      -- a call raises nothing by itself
      rintro g xs ⟨callee, hcall, -⟩
      rw [hcall] at hraise
      cases hraise
  | native hat hop ht hn =>
      have hnative : c.program.CallsNative _ := ⟨_, _, _, hop, ht⟩
      exact ⟨_, _, rfl, hloc hat.block hat.instr, ⟨hat.current, .inl hat.point⟩,
        fun hnot => absurd hnative hnot, fun g xs hcall => absurd hnative hcall.not_callsNative⟩
  | @argument id b k i callee xs g param arg hat hop ht hparam hadm =>
      refine ⟨_, _, rfl, hloc hat.block hat.instr, ⟨hat.current, .inl hat.point⟩,
        fun _ => ⟨g, xs, ⟨callee, hop, ht⟩, rfl, hparam⟩, ?_⟩
      rintro g' xs' ⟨callee', hcall, ht'⟩
      rw [hop] at hcall
      cases hcall
      rw [ht] at ht'
      cases ht'
      exact .inl ⟨param, hparam, _, rfl⟩

/-- A function of a well-formed program can be entered with arguments that its parameters
admit. -/
theorem Program.BodyWellFormed.enter_of_admits {p : Program} {f : Function} {args : List Value}
    (hf : p.BodyWellFormed f)
    (hargs : List.Forall₂ (fun param arg => param.ty.admits arg = true) f.params args) :
    ∃ a, Activation.enter f args = .ok a := by
  obtain ⟨hlen, hadmits⟩ := List.forall₂_iff_zip.mp hargs
  cases he : Activation.enter f args with
  | ok a => exact ⟨a, rfl⟩
  | error fault =>
      rcases Activation.enter_eq_error he with
        ⟨hne, -⟩ | ⟨v, hle, hlt, -⟩ | ⟨param, arg, hmem, hno, -⟩
      · exact absurd hlen hne
      · have hroom := hf.params_le
        omega
      · rw [hadmits hmem] at hno
        cases hno

/-- **Every failure is blamed on the innermost failing instruction.** Take a run of a function
with a body of a verified program, on an engine in any state, with arguments that the parameters
admit in number and type. If it ends with a failure, then the failure has a location; the location
names an existing instruction of the program, which is the one that the call on top of the stack
was executing in the last step of the run; unless the instruction calls a native, the fault
fits it; and if it calls a function with a body, then an argument of this very call was refused,
or had no value. -/
theorem Engine.failure_blames_innermost {e : Engine} (hp : e.program.verify = .ok ())
    {id : FunctionId} {f : Function} (hf : e.program.function? id = some f)
    (hbody : f.isExternal = false) {args : List Value}
    (hargs : List.Forall₂ (fun param arg => param.ty.admits arg = true) f.params args)
    (fuel : Nat) {failure : Failure}
    (h : (e.call fuel (.function id) args).1 = some (.error failure)) :
    ∃ n a ws r l i,
      e.context.run n (e.context.start e.resources (.function id) args)
        = ⟨.running a ws, r⟩ ∧
      (e.context.step ⟨.running a ws, r⟩).result? = some (.error failure) ∧
      failure.location = some l ∧ e.context.Explains a l i failure.fault := by
  have hwf : e.context.program.WellFormed := Program.wellFormed_of_verify hp
  have hmem : f ∈ e.context.program.functions := List.mem_of_getElem? hf
  obtain ⟨a₀, he⟩ := (hwf.bodies f hmem hbody).enter_of_admits hargs
  have hstart : e.context.start e.resources (.function id) args
      = ⟨.running a₀ [], e.resources⟩ := by
    have ht : e.context.program.target (.function id) = .ok (.body f) := by
      have hf' : e.context.program.function? id = some f := hf
      simp [Program.target, hf', hbody]
    simp [Context.start, ht, he]
  have hrun : (e.context.run fuel ⟨.running a₀ [], e.resources⟩).result?
      = some (.error failure) := by
    rw [← hstart]
    exact h
  obtain ⟨n, a, ws, r, hn, hlast⟩ := Context.exists_last_step hrun
  have hreach : e.context.Reaches e.resources (e.context.run n ⟨.running a₀ [], e.resources⟩) :=
    Context.reaches_run
      (.running .refl ⟨f, args, hmem, hbody, .enter he⟩ fun w hw => absurd hw List.not_mem_nil) n
  rw [hn] at hreach
  cases hreach with
  | running hr ha hws =>
      obtain ⟨r', hraise⟩ := Context.raises_of_step hwf ha hws hlast
      obtain ⟨l, i, hl, hexplains⟩ :=
        (Context.blames_of_raises hwf ha hraise).explains hwf ha fun l hl => hraise.point hl
      exact ⟨n, a, ws, r, l, i, by rw [hstart]; exact hn, hlast, hl, hexplains⟩

/-- A function that divides by its argument, and one that calls it. -/
def nestedDivision : Program where
  globals := []
  functions :=
    [⟨"main", [⟨"n", .int .int⟩],
      [⟨0,
        [⟨some 1, .call (.function 1) [.value 0]⟩,
         ⟨none, .ret [.value 1]⟩], [], []⟩], 0, 2⟩,
     ⟨"inverse", [⟨"n", .int .int⟩],
      [⟨0,
        [⟨some 1, .binary .quo (.int .int 100) (.value 0)⟩,
         ⟨none, .ret [.value 1]⟩], [], []⟩], 0, 2⟩]

/-- Called with zero, the division is blamed, and not the call that waits for it. -/
theorem Engine.failure_blames_innermost_nestedDivision :
    ((Engine.new nestedDivision .unlimited).call 9 (.function 0)
        [.int (.ofInt .int 0)]).1
          = some (.error ⟨.divisionByZero, some ⟨"inverse", 0, 0⟩⟩) ∧
      ∃ n a ws r l i,
        (Engine.new nestedDivision .unlimited).context.run n
          ((Engine.new nestedDivision .unlimited).context.start
            (Engine.new nestedDivision .unlimited).resources (.function 0)
            [.int (.ofInt .int 0)]) = ⟨.running a ws, r⟩ ∧
        ((Engine.new nestedDivision .unlimited).context.step ⟨.running a ws, r⟩).result?
          = some (.error ⟨.divisionByZero, some ⟨"inverse", 0, 0⟩⟩) ∧
        some (⟨"inverse", 0, 0⟩ : Location) = some l ∧
        (Engine.new nestedDivision .unlimited).context.Explains a l i .divisionByZero := by
  have hrun : ((Engine.new nestedDivision .unlimited).call 9 (.function 0)
      [.int (.ofInt .int 0)]).1
        = some (.error ⟨.divisionByZero, some ⟨"inverse", 0, 0⟩⟩) := rfl
  have hargs : List.Forall₂ (fun (param : Param) arg => param.ty.admits arg = true)
      [⟨"n", .int .int⟩] [.int (.ofInt .int 0)] := .cons (by decide) .nil
  exact ⟨hrun, failure_blames_innermost (e := Engine.new nestedDivision .unlimited) rfl rfl rfl
    hargs 9 hrun⟩

end SsaMachine
