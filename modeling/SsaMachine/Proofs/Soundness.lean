import SsaMachine.Proofs.Blame
import SsaMachine.Proofs.Session

set_option autoImplicit false

/-! # What verification promises

Some faults say that the program itself makes no sense: control went to a block that does not
exist or past the end of one, a function or a global variable does not exist, a call passed the
wrong number of arguments. Verification is there to rule them out before a run, and this file
shows that it does, for every run of every session and at every depth of calls
(`Engine.verified_run_not_structural`).

Verification does not rule out that a value is used before it is bound, since it does not look
at paths (see `Proofs/Dominance.lean` for what does). It does promise that the value is one of
the function that uses it.
-/

namespace SsaMachine

/-- Whether the fault blames the form of the program, and not what it computes. -/
def Fault.isStructural : Fault → Bool
  | unknownBlock _ | missingTerminator _ | unknownFunction _ | unknownGlobal _ | arity _ _ _ => true
  | _ => false

/-- The faults that natives are assumed to leave to the machine: those that blame the form of the
program, and that a value is not bound. -/
def Fault.isReserved : Fault → Bool
  | unboundValue _ => true
  | fault => fault.isStructural

/-- What verification promises of a failure: the form of the program is not to blame, and a value
that is not bound is one of the function where the failure is located. -/
structure Failure.PromisedBy (failure : Failure) (p : Program) : Prop where
  form : failure.fault.isStructural = false
  value : ∀ v, failure.fault = .unboundValue v →
    ∃ l id f, failure.location = some l ∧ p.functionId? l.function = some id ∧
      p.function? id = some f ∧ v < f.valueCount

theorem Failure.promisedBy_of_not_reserved {failure : Failure} {p : Program}
    (h : failure.fault.isReserved = false) : failure.PromisedBy p := by
  constructor
  · cases hfault : failure.fault with
    | unboundValue v => rfl
    | _ => simpa [hfault, Fault.isReserved] using h
  · intro v hv
    rw [hv] at h
    cases h

/-- No operation raises one of these faults by itself. -/
theorem Operation.CanRaise.not_reserved {op : Operation} {fault : Fault}
    (h : op.CanRaise fault) : fault.isReserved = false := by
  cases h <;> rfl

/-- An operand of a well-formed instruction cannot be evaluated because the value is not bound,
or because the constant has no value at its type. -/
theorem Program.InstrWellFormed.eval_eq_error {c : Context} {f : Function} {b : Block}
    {i : Instr} {g : Frame} {x : Operand} {fault : Fault}
    (hi : c.program.InstrWellFormed f b i) (hx : i.op.Uses x)
    (hglobals : ∀ y ∈ c.program.globals, ∃ a, c.globals.address y.name = .ok a)
    (h : c.eval g x = .error fault) :
    (∃ v < f.valueCount, fault = .unboundValue v) ∨
      ∃ literal ty, fault = .unsupportedConstant literal ty := by
  rcases Context.eval_eq_error h with ⟨v, rfl, -, rfl⟩ | ⟨k, rfl, rfl⟩ | ⟨id, rfl, hfault⟩
  · exact .inl ⟨v, hi.values v hx, rfl⟩
  · exact .inr ⟨_, _, rfl⟩
  · obtain ⟨y, hy⟩ := hi.globals id hx
    obtain ⟨a, ha⟩ := hglobals y (List.mem_of_getElem? hy)
    simp [Context.globalAddress, hy, ha] at hfault

/-- Among the failures that are left in a well-formed program, those of operands are the ones
to look at: the value is one of the function that the instruction belongs to. -/
theorem Context.Blames.promisedBy {c : Context} {r : Resources} {a : Activation}
    {failure : Failure} (hp : c.program.WellFormed) (ha : c.Lives a)
    (hglobals : ∀ y ∈ c.program.globals, ∃ a, c.globals.address y.name = .ok a)
    (hnatives : r.registry.All (·.Avoids (·.isReserved = true))) (h : c.Blames r a failure) :
    failure.PromisedBy c.program := by
  obtain ⟨f, args, hmem, hbody, hlife⟩ := ha
  have hf := hp.bodies f hmem hbody
  have hplaced := hlife.placed hf
  -- a fault of an operand, wherever the operand stands
  have hoperand : ∀ {id : BlockId} {b : Block} {k : Nat} {i : Instr} {x : Operand}
      {fault : Fault}, a.function.block? id = some b → b.instrs[k]? = some i → i.op.Uses x →
      c.eval a.frame x = .error fault →
      Failure.PromisedBy ⟨fault, some ⟨a.function.name, id, k⟩⟩ c.program := by
    intro id b k i x fault hb hk hx hev
    have hi := hf.instrs b (hplaced.mem_blocks hb) i (List.mem_of_getElem? hk)
    rcases hi.eval_eq_error hx hglobals hev with ⟨v, hlt, rfl⟩ | ⟨literal, ty, rfl⟩
    · refine ⟨rfl, fun v' hv' => ?_⟩
      cases hv'
      obtain ⟨fid, hname, hfid⟩ := hp.functionId?_name hmem
      exact ⟨_, fid, f, rfl, hplaced.function_eq ▸ hname, hfid, hlt⟩
    · exact Failure.promisedBy_of_not_reserved rfl
  cases h with
  | operand hat hop hx hev => exact hoperand hat.block hat.instr hx hev
  | edge hid hb hk hop hsel =>
      rcases selectEdge_eq_error hsel with ⟨e, he, -, hev⟩ | ⟨-, rfl⟩
      · exact hoperand hb hk (by rw [hop]; exact .phiEdge he) hev
      · exact Failure.promisedBy_of_not_reserved rfl
  | own hat hraise => exact Failure.promisedBy_of_not_reserved hraise.not_reserved
  | native hat hop ht hn =>
      refine Failure.promisedBy_of_not_reserved ?_
      rcases Resources.callNative_eq_error hnatives hn with rfl | hgood
      · rfl
      · simpa using hgood
  | argument => exact Failure.promisedBy_of_not_reserved rfl

/-- **Verification is sound for the engine.** Take any session on a verified program in which the
global variables have been created. A call of a function with a body, with as many arguments as
it has parameters, never ends with a fault that blames the form of the program, at whatever depth
of calls; and when it ends because a value is not bound, the value is one of the function where
the failure is located. -/
theorem Engine.verified_run_not_structural {p : Program} (hp : p.verify = .ok ()) (sink : Sink)
    (before after : List Request) {e : Engine}
    (hset : ((Engine.new p sink).serveAll before).setUpGlobals = (.ok (), e))
    (hnatives : (e.serveAll after).resources.registry.All (·.Avoids (·.isReserved = true)))
    {id : FunctionId} {f : Function} (hf : p.function? id = some f)
    (hbody : f.isExternal = false) {args : List Value} (hargs : args.length = f.params.length)
    (fuel : Nat) {failure : Failure}
    (h : ((e.serveAll after).call fuel (.function id) args).1 = some (.error failure)) :
    failure.fault.isStructural = false ∧
      ∀ v, failure.fault = .unboundValue v →
        ∃ l gid g, failure.location = some l ∧ p.functionId? l.function = some gid ∧
          p.function? gid = some g ∧ v < g.valueCount := by
  have hwf := Program.wellFormed_of_verify hp
  obtain ⟨hbecomes, hinit⟩ := Becomes.prepared (P := fun _ => True) after
    (fun _ _ _ => trivial) (fun _ _ _ => trivial) hset
  have hprogram : (e.serveAll after).context.program = p := hbecomes.program_eq
  have hglobals := hbecomes.located hwf.globals_nodup rfl hinit
  have hwf' : (e.serveAll after).context.program.WellFormed := hprogram ▸ hwf
  have hpromised : failure.PromisedBy p := by
    rcases Context.blames_of_run hwf' (hprogram ▸ hf) hbody hargs h with
      ⟨param, arg, rfl, -⟩ | ⟨a, r, ha, hr, hblames⟩
    · exact Failure.promisedBy_of_not_reserved rfl
    · exact hprogram ▸ hblames.promisedBy hwf' ha hglobals (hr.registry hnatives)
  exact ⟨hpromised.form, hpromised.value⟩

/-- A verified program that uses a value too early, in a function that is called. -/
def earlyUseProgram : Program where
  globals := [⟨"total", .int .int⟩]
  functions :=
    [⟨"main", [],
      [⟨0,
        [⟨some 0, .unary .load (.global 0)⟩,
         ⟨some 1, .call (.function 1) [.value 0]⟩,
         ⟨none, .ret [.value 1]⟩], [], []⟩], 0, 2⟩,
     ⟨"inner", [⟨"x", .int .int⟩],
      [⟨0,
        [⟨some 1, .binary .add (.value 0) (.value 2)⟩,
         ⟨some 2, .call (.builtin "echo") [.value 1]⟩,
         ⟨none, .ret [.value 2]⟩], [], []⟩], 0, 3⟩]

/-- In the called function a value of that function is not bound. -/
theorem Engine.verified_run_not_structural_earlyUse :
    ∃ failure : Failure,
      (((((Engine.new earlyUseProgram .unlimited).serveAll []).setUpGlobals.2).serveAll
        [.register "echo" .echo]).call 9 (.function 0) []).1 = some (.error failure) ∧
      failure.fault.isStructural = false ∧
      ∀ v, failure.fault = .unboundValue v →
        ∃ l id f, failure.location = some l ∧ earlyUseProgram.functionId? l.function = some id ∧
          earlyUseProgram.function? id = some f ∧ v < f.valueCount := by
  have hrun : (((((Engine.new earlyUseProgram .unlimited).serveAll []).setUpGlobals.2).serveAll
      [.register "echo" .echo]).call 9 (.function 0) []).1
        = some (.error ⟨.unboundValue 2, some ⟨"inner", 0, 0⟩⟩) := rfl
  refine ⟨_, hrun, ?_⟩
  have hecho : Native.echo.Avoids (·.isReserved = true) := by
    intro call args m s fault h
    cases h
  have hstandard : Registry.standard.All (·.Avoids (·.isReserved = true)) :=
    Registry.all_standard (Native.avoids_writing fun message h => by cases h)
  exact verified_run_not_structural (p := earlyUseProgram) rfl .unlimited []
    [.register "echo" .echo] rfl (hstandard.register "echo" hecho) rfl rfl rfl 9 hrun

end SsaMachine
