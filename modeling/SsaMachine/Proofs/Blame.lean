import SsaMachine.Proofs.Life

set_option autoImplicit false

/-! # What can go wrong in a verified program

The machine has a fault for every way in which a program can be malformed. In a well-formed
program most of them cannot occur, and this file says which failures are left and which
instruction is to blame for each (`Context.Blames`):

* an operand could not be evaluated, or a phi could not take its operand;
* the operation itself went wrong on the values of its operands;
* a native answered a call with a fault;
* an argument was of the wrong type for a function with a body.

What carries this is a fact about a single call, by induction over its life
(`Context.Life.placed`): the call has room for the values of its function, its current block
exists, and it stands at an instruction of that block. So the block is never left at its end: the
last instruction is a terminator, and the machine moves on by one only after an instruction
that is none.
-/

namespace SsaMachine

/-! ## Where a call stands -/

/-- The call has room for the values of `f` and stands at an instruction of a block of `f`, or
at the head of one, unless it has returned. -/
structure Activation.Placed (f : Function) (a : Activation) : Prop where
  function_eq : a.function = f
  room : a.frame.slots.size = f.valueCount
  block : ∀ id, a.frame.block = some id →
    ∃ b, f.block? id = some b ∧ ∀ k, a.point = .instr k → k < b.instrs.length

theorem Activation.Placed.block?_eq {f : Function} {a : Activation} {id : BlockId} {b : Block}
    (h : a.Placed f) (hb : a.function.block? id = some b) : f.block? id = some b :=
  h.function_eq ▸ hb

theorem Activation.Placed.mem_blocks {f : Function} {a : Activation} {id : BlockId} {b : Block}
    (h : a.Placed f) (hb : a.function.block? id = some b) : b ∈ f.blocks :=
  f.mem_blocks_of_block? (h.block?_eq hb)

theorem Block.isPhi_of_mem_headPhis {b : Block} {i : Instr} (h : i ∈ b.headPhis) :
    i.op.isPhi = true :=
  List.all_eq_true.mp List.all_takeWhile i h

/-- The phis at the head of a block that ends once do not reach its end. -/
theorem Block.EndsOnce.headPhis_length_lt {b : Block} (h : b.EndsOnce) :
    b.headPhis.length < b.instrs.length := by
  have hprefix : b.headPhis <+: b.instrs := List.takeWhile_prefix _
  refine Nat.lt_of_le_of_ne hprefix.length_le fun hlen => ?_
  -- otherwise the terminator would itself be a phi
  have hall : b.headPhis = b.instrs := hprefix.eq_of_length hlen
  obtain ⟨body, last, hb, hlast, -⟩ := h
  have hmem : last ∈ b.headPhis := by
    rw [hall, hb]
    exact List.mem_append_right _ List.mem_cons_self
  have hphi : last.op.isPhi = true := Block.isPhi_of_mem_headPhis hmem
  cases hop : last.op with
  | phi edges => simp [hop, Operation.isTerminator] at hlast
  | _ => simp [hop, Operation.isPhi] at hphi

/-- A call that waits goes on after its call instruction, with the answer bound. -/
theorem Caller.resume_eq_ok {w : Caller} {v : Value} {a : Activation}
    (h : w.resume v = .ok a) :
    ∃ f, w.frame.define w.dest v = .ok f ∧ a = ⟨w.function, f, .instr (w.index + 1)⟩ := by
  unfold resume at h
  split at h
  · cases h
  · rename_i f hf
    cases h
    exact ⟨f, hf, rfl⟩

theorem Caller.resume_eq_error {w : Caller} {v : Value} {failure : Failure}
    (h : w.resume v = .error failure) :
    ∃ id, w.dest = some id ∧ w.frame.slots.size ≤ id ∧
      failure = ⟨.unboundValue id, some w.location⟩ := by
  unfold resume at h
  split at h
  · rename_i fault hf
    cases h
    obtain ⟨id, hdest, hle, rfl⟩ := Frame.define_eq_error hf
    exact ⟨id, hdest, hle, rfl⟩
  · cases h

section Placement

variable {p : Program} {f : Function} (hf : p.BodyWellFormed f)
include hf

/-- Control proceeds by one position after an instruction that is no terminator. -/
theorem Activation.Placed.next {a : Activation} {id : BlockId} {b : Block} {k : Nat} {i : Instr}
    {g : Frame} (h : a.Placed f) (hat : a.At id b k i) (hi : i.op.isTerminator = false)
    (hg : a.frame.Grows g) : Placed f ⟨a.function, g, .instr (k + 1)⟩ := by
  refine ⟨h.function_eq, hg.size_eq.trans h.room, fun id' hid' => ?_⟩
  rw [hg.eq_of_block hat.current hid']
  refine ⟨b, h.block?_eq hat.block, fun k' hk' => ?_⟩
  cases hk'
  exact (hf.endsOnce b (h.mem_blocks hat.block)).succ_lt hat.instr hi

theorem Activation.Placed.move {c : Context} {r r' : Resources} {a a' : Activation}
    (h : a.Placed f) (hm : c.Move r a r' a') : a'.Placed f := by
  cases hm with
  | @phis id b g n hid hb hp hphis =>
      obtain ⟨hg, hn, -⟩ := Context.resolvePhis_eq_ok hphis
      refine ⟨h.function_eq, hg.size_eq.trans h.room, fun id' hid' => ?_⟩
      rw [hg.eq_of_block hid hid']
      refine ⟨b, h.block?_eq hb, fun k hk => ?_⟩
      cases hk
      rw [hn]
      exact (hf.endsOnce b (h.mem_blocks hb)).headPhis_length_lt
  | proceed hat hex =>
      rcases Context.execute_eq_proceed hex with ⟨hterm, -, rfl, -⟩ | ⟨hyields, -, v, hdef⟩
      · exact h.next hf hat hterm (.refl _)
      · exact h.next hf hat (Operation.isTerminator_of_yieldsValue hyields)
          (Frame.define_eq_ok hdef).1
  | @goto id b k i t hat hex =>
      refine ⟨h.function_eq, h.room, fun id' hid' => ?_⟩
      have hb : b ∈ f.blocks := h.mem_blocks hat.block
      have ht : t ∈ b.targets :=
        (hf.endsOnce b hb).mem_targets hat.instr (Context.execute_eq_goto hex)
      obtain ⟨b', hb'⟩ := hf.targets b hb t ht
      cases hid'
      exact ⟨b', hb', fun k hk => by cases hk⟩
  | exit hat hex => exact ⟨h.function_eq, h.room, fun id hid => by cases hid⟩

theorem Activation.Placed.answer {c : Context} {m : Memory} {callee : Callee} {vs : List Value}
    {w : Caller} {v : Value} {a a' : Activation} (h : a.Placed f)
    (hc : c.Calls m a callee vs w) (hv : w.resume v = .ok a') : a'.Placed f := by
  cases hc with
  | intro hat hex =>
      obtain ⟨g, hdef, rfl⟩ := Caller.resume_eq_ok hv
      obtain ⟨xs, hop, -⟩ := Context.execute_eq_call hex
      exact h.next hf hat (by rw [hop]; rfl) (Frame.define_eq_ok hdef).1

/-- **A call of a well-formed function always stands somewhere in the function.** -/
theorem Context.Life.placed {c : Context} {args : List Value} {a : Activation}
    (h : c.Life f args a) : a.Placed f := by
  induction h with
  | enter he =>
      obtain ⟨hfun, hpoint, hsize, hblock, -, -⟩ := Activation.enter_eq_ok he
      refine ⟨hfun, hsize, fun id hid => ?_⟩
      have hid' : id = f.entry := Option.some.inj (hid.symm.trans hblock)
      obtain ⟨b, hb⟩ := hf.entry
      refine ⟨b, hid' ▸ hb, fun k hk => ?_⟩
      rw [hpoint] at hk
      cases hk
  | move _ hm ih => exact ih.move hf hm
  | answer _ hc hv ih => exact ih.answer hf hc hv

end Placement

/-! ## The failures that are left -/

/-- The failures of a call of a well-formed function, each with the instruction to blame. -/
inductive Context.Blames (c : Context) (r : Resources) (a : Activation) : Failure → Prop
  | operand {id : BlockId} {b : Block} {k : Nat} {i : Instr} {x : Operand} {fault : Fault}
      (hat : a.At id b k i) (hop : i.op.isPhi = false) (hx : i.op.Uses x)
      (h : c.eval a.frame x = .error fault) :
      Blames c r a ⟨fault, some ⟨a.function.name, id, k⟩⟩
  | edge {id : BlockId} {b : Block} {k : Nat} {i : Instr} {edges : List PhiEdge} {fault : Fault}
      (hid : a.frame.block = some id) (hb : a.function.block? id = some b)
      (hk : b.instrs[k]? = some i) (hop : i.op = .phi edges)
      (h : c.selectEdge a.frame edges = .error fault) :
      Blames c r a ⟨fault, some ⟨a.function.name, id, k⟩⟩
  | own {id : BlockId} {b : Block} {k : Nat} {i : Instr} {fault : Fault}
      (hat : a.At id b k i) (h : i.op.CanRaise fault) :
      Blames c r a ⟨fault, some ⟨a.function.name, id, k⟩⟩
  | native {id : BlockId} {b : Block} {k : Nat} {i : Instr} {callee : Callee}
      {xs : List Operand} {vs : List Value} {name : String} {fault : Fault} {r' : Resources}
      (hat : a.At id b k i) (hop : i.op = .call callee xs)
      (ht : c.program.target callee = .ok (.native name))
      (h : r.callNative name vs = (.error fault, r')) :
      Blames c r a ⟨fault, some ⟨a.function.name, id, k⟩⟩
  | argument {id : BlockId} {b : Block} {k : Nat} {i : Instr} {callee : Callee}
      {xs : List Operand} {g : Function} {param : Param} {arg : Value}
      (hat : a.At id b k i) (hop : i.op = .call callee xs)
      (ht : c.program.target callee = .ok (.body g)) (hparam : param ∈ g.params)
      (h : param.ty.admits arg = false) :
      Blames c r a ⟨.argumentType g.name param.name param.ty arg.kind,
        some ⟨a.function.name, id, k⟩⟩

/-- A failure with an instruction to blame has a location, which nothing replaces. -/
theorem Context.Blames.locate {c : Context} {r : Resources} {a : Activation}
    {failure : Failure} (h : c.Blames r a failure) (l : Option Location) :
    failure.locate l = failure := by
  cases h <;> rfl

/-- The callee of a well-formed instruction exists. -/
theorem Program.InstrWellFormed.target_ne_error {p : Program} {f : Function} {b : Block}
    {i : Instr} {callee : Callee} {xs : List Operand} (h : p.InstrWellFormed f b i)
    (hop : i.op = .call callee xs) (fault : Fault) : p.target callee ≠ .error fault := by
  intro ht
  cases callee with
  | builtin name => cases ht
  | function id =>
      obtain ⟨g, hg, -⟩ := h.calls id xs hop
      simp only [target, hg] at ht
      split at ht <;> cases ht

/-- A well-formed instruction passes to a function with a body as many arguments as it has
parameters. -/
theorem Program.InstrWellFormed.args_length {p : Program} {f g : Function} {b : Block}
    {i : Instr} {callee : Callee} {xs : List Operand} (h : p.InstrWellFormed f b i)
    (hop : i.op = .call callee xs) (ht : p.target callee = .ok (.body g)) :
    xs.length = g.params.length := by
  have hbody := (target_eq_body ht).2
  cases callee with
  | builtin name => cases ht
  | function id =>
      obtain ⟨g', hg', hargs⟩ := h.calls id xs hop
      have heq : g' = g := by
        simp only [target, hg'] at ht
        split at ht <;> cases ht
        rfl
      subst heq
      exact hargs hbody

/-- A function with a body that is given as many arguments as it has parameters can only
refuse them because of the type of one. -/
theorem Program.BodyWellFormed.enter_eq_error {p : Program} {f : Function} {vs : List Value}
    {fault : Fault} (hf : p.BodyWellFormed f) (hlen : vs.length = f.params.length)
    (h : Activation.enter f vs = .error fault) :
    ∃ param arg, param ∈ f.params ∧ param.ty.admits arg = false ∧
      fault = .argumentType f.name param.name param.ty arg.kind := by
  rcases Activation.enter_eq_error h with ⟨hne, -⟩ | ⟨v, hle, hlt, -⟩ | ⟨param, arg, hmem, hadm, rfl⟩
  · exact absurd hlen.symm hne
  · exact absurd (Nat.lt_of_lt_of_le hlt hf.params_le) (Nat.not_lt_of_le hle)
  · exact ⟨param, arg, (List.of_mem_zip hmem).1, hadm, rfl⟩

/-- The faults of a single instruction, other than those of a call that it makes. -/
theorem Context.blames_of_cause {c : Context} {f : Function} {r : Resources} {a : Activation}
    {id : BlockId} {b : Block} {k : Nat} {i : Instr} {fault : Fault} (hf : c.program.BodyWellFormed f)
    (ha : a.Placed f) (hat : a.At id b k i) (h : c.Cause a.frame i fault) :
    c.Blames r a ⟨fault, some ⟨a.function.name, id, k⟩⟩ := by
  cases h with
  | edge hop hsel => exact .edge hat.current hat.block hat.instr hop hsel
  | operand hop hx hev => exact .operand hat hop hx hev
  | own hraise => exact .own hat hraise
  | dest hdef =>
      -- the result has a slot, because its number is below the value count
      obtain ⟨v, hdest, hle, -⟩ := Frame.define_eq_error hdef
      have hlt := hf.dest_lt (ha.mem_blocks hat.block) (List.mem_of_getElem? hat.instr) hdest
      rw [ha.room] at hle
      exact absurd hlt (Nat.not_lt_of_le hle)

section Failures

variable {c : Context} (hp : c.program.WellFormed)
include hp

/-- **Whatever a call of a verified program raises, one of its instructions is to blame.** -/
theorem Context.blames_of_raises {r r' : Resources} {a : Activation} {failure : Failure}
    (ha : c.Lives a) (h : c.Raises r a failure r') : c.Blames r a failure := by
  obtain ⟨f, args, hmem, hbody, hlife⟩ := ha
  have hf := hp.bodies f hmem hbody
  have hplaced := hlife.placed hf
  cases h with
  | block hid hb =>
      -- the current block exists
      obtain ⟨b, hb', -⟩ := hplaced.block _ hid
      rw [hplaced.function_eq, hb'] at hb
      cases hb
  | @phis id b _ hid hb hp hphis =>
      -- the failure is located in the block by its own number, which is the current one
      have hnum : b.id = id := hf.numbered id b (hplaced.block?_eq hb)
      rcases resolvePhis_eq_error hphis with ⟨j, i, edges, fault, hj, hop, hsel, rfl⟩ |
        ⟨i, hi, v, hdest, hle, rfl⟩
      · rw [hnum]
        exact .edge hid hb hj hop hsel
      · have hlt := hf.dest_lt (hplaced.mem_blocks hb) hi hdest
        rw [hplaced.room] at hle
        exact absurd hlt (Nat.not_lt_of_le hle)
  | ended hid hb hp hk =>
      -- the position is one of the block
      obtain ⟨b', hb', hlt⟩ := hplaced.block _ hid
      rw [hplaced.function_eq, hb'] at hb
      cases hb
      rw [List.getElem?_eq_none_iff] at hk
      have := hlt _ hp
      omega
  | instr hat hex => exact blames_of_cause hf hplaced hat (cause_of_execute hex)
  | callee hc ht =>
      cases hc with
      | @intro id b k i hat hex =>
          obtain ⟨xs, hop, -⟩ := execute_eq_call hex
          have hi := hf.instrs b (hplaced.mem_blocks hat.block) i (List.mem_of_getElem? hat.instr)
          exact absurd ht (hi.target_ne_error hop _)
  | native hc ht hn =>
      cases hc with
      | intro hat hex =>
          obtain ⟨xs, hop, -⟩ := execute_eq_call hex
          exact .native hat hop ht hn
  | entry hc ht he =>
      cases hc with
      | @intro id b k i hat hex =>
          obtain ⟨xs, hop, hvs⟩ := execute_eq_call hex
          obtain ⟨hg, hgbody⟩ := Program.target_eq_body ht
          have hi := hf.instrs b (hplaced.mem_blocks hat.block) i (List.mem_of_getElem? hat.instr)
          have hlen := (evalAll_length hvs).trans (hi.args_length hop ht)
          obtain ⟨param, arg, hparam, hadm, rfl⟩ :=
            (hp.bodies _ hg hgbody).enter_eq_error hlen he
          exact .argument hat hop ht hparam hadm

/-- The frame of a waiting call has room for the answer. -/
theorem Context.resume_ne_error {w : Caller} (hw : c.Waits w) (v : Value) (failure : Failure) :
    w.resume v ≠ .error failure := by
  obtain ⟨m, a, callee, vs, ⟨f, args, hmem, hbody, hlife⟩, hc⟩ := hw
  have hf := hp.bodies f hmem hbody
  have hplaced := hlife.placed hf
  intro h
  cases hc with
  | @intro id b k i hat hex =>
      obtain ⟨v', hdest, hle, -⟩ := Caller.resume_eq_error h
      have hlt := hf.dest_lt (hplaced.mem_blocks hat.block) (List.mem_of_getElem? hat.instr) hdest
      have hroom : f.valueCount ≤ v' := hplaced.room ▸ hle
      exact absurd hlt (Nat.not_lt_of_le hroom)

/-- **A run of a verified program fails by the fault of one of its instructions**, unless the
host has called the function with an argument of the wrong type. -/
theorem Context.blames_of_run {r : Resources} {id : FunctionId} {f : Function}
    {args : List Value} {n : Nat} {failure : Failure} (hf : c.program.function? id = some f)
    (hbody : f.isExternal = false) (hargs : args.length = f.params.length)
    (h : (c.run n (c.start r (.function id) args)).result? = some (.error failure)) :
    (∃ param arg, failure = ⟨.argumentType f.name param.name param.ty arg.kind, none⟩ ∧
        param ∈ f.params ∧ param.ty.admits arg = false) ∨
      ∃ a r', c.Lives a ∧ r.Evolves r' ∧ c.Blames r' a failure := by
  rcases fails_of_run hf hbody h with ⟨fault, he, rfl⟩ | hfails
  · have hwf := hp.bodies f (List.mem_of_getElem? hf) hbody
    obtain ⟨param, arg, hparam, hadm, rfl⟩ := hwf.enter_eq_error hargs he
    exact .inl ⟨param, arg, rfl, hparam, hadm⟩
  · cases hfails with
    | @raised a r' r'' failure' ha hr hraise l =>
        have hblames := blames_of_raises hp ha hraise
        rw [hblames.locate l]
        exact .inr ⟨a, r', ha, hr, hblames⟩
    | unanswered hw hv => exact absurd hv (resume_ne_error hp hw _ _)

end Failures

end SsaMachine
