import SsaMachine.Machine.Execute
import SsaMachine.Machine.State
import SsaMachine.Proofs.WellFormed

set_option autoImplicit false

/-! # What an instruction does, and why it fails

Every fact about a run rests on what a single instruction can do to its frame and on the
faults it can end with. This file says both once, for every function that the machine executes
between two instructions, so that no later proof has to open one of them:

* **Success.** Binding results only ever adds bindings: `Frame.Grows` relates a frame to the
  same frame with more values bound. Entering a function, executing the phis at the head of a
  block and executing an instruction are described by it.
* **Failure.** A fault of an instruction has one of four causes (`Context.Cause`): a phi could
  not take its operand, another operand could not be evaluated, the result could not be bound,
  or the operation itself went wrong. The faults of the last sort are listed by operation
  (`Operation.CanRaise`).
-/

namespace SsaMachine

/-! ## Sequencing -/

section Sequencing

variable {α β : Type} {x : Except Fault α} {g : α → Except Fault β}

theorem bind_eq_ok {b : β} (h : (x >>= g) = .ok b) : ∃ a, x = .ok a ∧ g a = .ok b := by
  cases x with
  | error e => cases h
  | ok a => exact ⟨a, rfl, h⟩

theorem bind_eq_error {e : Fault} (h : (x >>= g) = .error e) :
    x = .error e ∨ ∃ a, x = .ok a ∧ g a = .error e := by
  cases x with
  | error e' =>
      cases h
      exact .inl rfl
  | ok a => exact .inr ⟨a, rfl, h⟩

end Sequencing

/-! ## Frames that grow -/

/-- A value is bound in the frame. -/
def Frame.Bound (f : Frame) (v : ValueId) : Prop :=
  ∃ x, f.value? v = some x

/-- The second frame is the first with some results bound, at the same place of the same call. -/
structure Frame.Grows (f f' : Frame) : Prop where
  size_eq : f'.slots.size = f.slots.size
  block_eq : f'.block = f.block
  previous_eq : f'.previous = f.previous
  bound : ∀ v, f.Bound v → f'.Bound v

theorem Frame.Grows.refl (f : Frame) : f.Grows f :=
  ⟨rfl, rfl, rfl, fun _ h => h⟩

theorem Frame.Grows.trans {f g h : Frame} (hfg : f.Grows g) (hgh : g.Grows h) : f.Grows h where
  size_eq := hgh.size_eq.trans hfg.size_eq
  block_eq := hgh.block_eq.trans hfg.block_eq
  previous_eq := hgh.previous_eq.trans hfg.previous_eq
  bound v hv := hgh.bound v (hfg.bound v hv)

theorem Frame.Grows.eq_of_block {f g : Frame} {id id' : BlockId} (h : f.Grows g)
    (hf : f.block = some id) (hg : g.block = some id') : id' = id :=
  Option.some.inj (hg.symm.trans (h.block_eq.trans hf))

theorem Frame.bind_eq_ok {f f' : Frame} {id : ValueId} {v : Value} (h : f.bind id v = .ok f') :
    f.Grows f' ∧ f'.Bound id := by
  have hself : f'.Bound id := ⟨v, value?_bind_self h⟩
  refine ⟨⟨?_, ?_, ?_, fun w hw => ?_⟩, hself⟩
  · obtain ⟨-, rfl⟩ := bind_eq_ok_iff.mp h
    simp
  · obtain ⟨-, rfl⟩ := bind_eq_ok_iff.mp h
    rfl
  · obtain ⟨-, rfl⟩ := bind_eq_ok_iff.mp h
    rfl
  · -- the slot itself is filled anew, and the other slots keep their contents
    by_cases hwid : w = id
    · rwa [hwid]
    · obtain ⟨x, hx⟩ := hw
      exact ⟨x, (value?_bind_of_ne h hwid).trans hx⟩

theorem Frame.bind_eq_error {f : Frame} {id : ValueId} {v : Value} {fault : Fault}
    (h : f.bind id v = .error fault) : f.slots.size ≤ id ∧ fault = .unboundValue id := by
  unfold bind at h
  split at h
  · cases h
  · rename_i hnot
    cases h
    exact ⟨Nat.le_of_not_lt hnot, rfl⟩

theorem Frame.define_eq_ok {f f' : Frame} {dest : Option ValueId} {v : Value}
    (h : f.define dest v = .ok f') : f.Grows f' ∧ ∀ id, dest = some id → f'.Bound id := by
  cases dest with
  | none =>
      cases h
      exact ⟨.refl f, fun _ hid => by cases hid⟩
  | some id =>
      obtain ⟨hgrows, hbound⟩ := Frame.bind_eq_ok h
      refine ⟨hgrows, fun id' hid => ?_⟩
      cases hid
      exact hbound

theorem Frame.define_eq_error {f : Frame} {dest : Option ValueId} {v : Value} {fault : Fault}
    (h : f.define dest v = .error fault) :
    ∃ id, dest = some id ∧ f.slots.size ≤ id ∧ fault = .unboundValue id := by
  cases dest with
  | none => cases h
  | some id => exact ⟨id, rfl, Frame.bind_eq_error h⟩

theorem Frame.defineAll_eq_ok {f f' : Frame} {l : List (Option ValueId × Value)}
    (h : f.defineAll l = .ok f') :
    f.Grows f' ∧ ∀ id, some id ∈ l.map Prod.fst → f'.Bound id := by
  induction l generalizing f with
  | nil =>
      cases h
      exact ⟨.refl _, fun _ hid => by cases hid⟩
  | cons dv rest ih =>
      obtain ⟨dest, v⟩ := dv
      cases hdef : f.define dest v with
      | error fault => simp [defineAll, hdef] at h
      | ok g =>
          have hrest : g.defineAll rest = .ok f' := by simpa [defineAll, hdef] using h
          obtain ⟨hfg, hdest⟩ := define_eq_ok hdef
          obtain ⟨hgf', hbound⟩ := ih hrest
          refine ⟨hfg.trans hgf', fun id hid => ?_⟩
          rcases List.mem_cons.mp hid with heq | hmem
          · exact hgf'.bound id (hdest id heq.symm)
          · exact hbound id hmem

theorem Frame.defineAll_eq_error {f : Frame} {l : List (Option ValueId × Value)} {fault : Fault}
    (h : f.defineAll l = .error fault) :
    ∃ id, some id ∈ l.map Prod.fst ∧ f.slots.size ≤ id ∧ fault = .unboundValue id := by
  induction l generalizing f with
  | nil => cases h
  | cons dv rest ih =>
      obtain ⟨dest, v⟩ := dv
      cases hdef : f.define dest v with
      | error fault' =>
          have heq : fault' = fault := by simpa [defineAll, hdef] using h
          obtain ⟨id, hid, hle, hfault⟩ := define_eq_error hdef
          exact ⟨id, by simp [hid], hle, heq ▸ hfault⟩
      | ok g =>
          have hrest : g.defineAll rest = .error fault := by simpa [defineAll, hdef] using h
          obtain ⟨id, hid, hle, hfault⟩ := ih hrest
          rw [(define_eq_ok hdef).1.size_eq] at hle
          exact ⟨id, List.mem_cons_of_mem _ hid, hle, hfault⟩

/-! ## Entering a function -/

theorem Activation.bindParams_eq_ok {name : String} {k : Nat} {f f' : Frame}
    {l : List (Param × Value)} (h : bindParams name k f l = .ok f') :
    f.Grows f' ∧ ∀ j < l.length, f'.Bound (k + j) := by
  induction l generalizing k f with
  | nil =>
      cases h
      exact ⟨.refl _, fun j hj => by cases hj⟩
  | cons pa rest ih =>
      obtain ⟨param, arg⟩ := pa
      by_cases hadmit : param.ty.admits arg = true
      · cases hbind : f.bind k arg with
        | error fault => simp [bindParams, hadmit, hbind] at h
        | ok g =>
            have hrest : bindParams name (k + 1) g rest = .ok f' := by
              simpa [bindParams, hadmit, hbind] using h
            obtain ⟨hfg, hself⟩ := Frame.bind_eq_ok hbind
            obtain ⟨hgf', hbound⟩ := ih hrest
            refine ⟨hfg.trans hgf', fun j hj => ?_⟩
            cases j with
            | zero => exact hgf'.bound k hself
            | succ j =>
                have hj' : j < rest.length := by simpa using hj
                rw [Nat.add_succ, ← Nat.succ_add]
                exact hbound j hj'
      · simp [bindParams, hadmit] at h

theorem Activation.bindParams_eq_error {name : String} {k : Nat} {f : Frame}
    {l : List (Param × Value)} {fault : Fault} (h : bindParams name k f l = .error fault) :
    (∃ id, f.slots.size ≤ id ∧ id < k + l.length ∧ fault = .unboundValue id) ∨
      ∃ param arg, (param, arg) ∈ l ∧ param.ty.admits arg = false ∧
        fault = .argumentType name param.name param.ty arg.kind := by
  induction l generalizing k f with
  | nil => cases h
  | cons pa rest ih =>
      obtain ⟨param, arg⟩ := pa
      by_cases hadmit : param.ty.admits arg = true
      · cases hbind : f.bind k arg with
        | error fault' =>
            have heq : fault' = fault := by simpa [bindParams, hadmit, hbind] using h
            obtain ⟨hle, hfault⟩ := Frame.bind_eq_error hbind
            refine .inl ⟨k, hle, ?_, heq ▸ hfault⟩
            rw [List.length_cons]
            omega
        | ok g =>
            have hrest : bindParams name (k + 1) g rest = .error fault := by
              simpa [bindParams, hadmit, hbind] using h
            rcases ih hrest with ⟨id, hle, hlt, hfault⟩ | ⟨q, x, hmem, hq, hfault⟩
            · rw [(Frame.bind_eq_ok hbind).1.size_eq] at hle
              refine .inl ⟨id, hle, ?_, hfault⟩
              rw [List.length_cons]
              omega
            · exact .inr ⟨q, x, List.mem_cons_of_mem _ hmem, hq, hfault⟩
      · refine .inr ⟨param, arg, List.mem_cons_self, by simpa using hadmit, ?_⟩
        have heq : Fault.argumentType name param.name param.ty arg.kind = fault := by
          simpa [bindParams, hadmit] using h
        exact heq.symm

/-- A call that has been entered stands at the head of the entry block, with room for the
values of the function and with its parameters bound. -/
theorem Activation.enter_eq_ok {f : Function} {args : List Value} {a : Activation}
    (h : enter f args = .ok a) :
    a.function = f ∧ a.point = .head ∧ a.frame.slots.size = f.valueCount ∧
      a.frame.block = some f.entry ∧ a.frame.previous = none ∧
      ∀ v < f.params.length, a.frame.Bound v := by
  unfold enter at h
  split at h
  · cases h
  · rename_i harity
    split at h
    · cases h
    · rename_i frame hbind
      cases h
      obtain ⟨hgrows, hbound⟩ := bindParams_eq_ok hbind
      refine ⟨rfl, rfl, ?_, hgrows.block_eq, hgrows.previous_eq, fun v hv => ?_⟩
      · rw [hgrows.size_eq]
        simp [Frame.start]
      · have hlen : v < (f.params.zip args).length := by
          rw [List.length_zip]
          omega
        simpa using hbound v hlen

/-- A call cannot be entered because of the number of its arguments, because of the type of one,
or because the function has no room for its parameters. -/
theorem Activation.enter_eq_error {f : Function} {args : List Value} {fault : Fault}
    (h : enter f args = .error fault) :
    (f.params.length ≠ args.length ∧
        fault = .arity f.name f.params.length args.length) ∨
      (∃ id, f.valueCount ≤ id ∧ id < f.params.length ∧ fault = .unboundValue id) ∨
      ∃ param arg, (param, arg) ∈ f.params.zip args ∧ param.ty.admits arg = false ∧
        fault = .argumentType f.name param.name param.ty arg.kind := by
  unfold enter at h
  split at h
  · rename_i harity
    cases h
    exact .inl ⟨harity, rfl⟩
  · rename_i harity
    split at h
    · rename_i fault' hbind
      cases h
      rcases bindParams_eq_error hbind with ⟨id, hle, hlt, hfault⟩ | hparam
      · -- as many pairs as parameters, since the numbers agree
        refine .inr (.inl ⟨id, by simpa [Frame.start] using hle, ?_, hfault⟩)
        rw [List.length_zip] at hlt
        omega
      · exact .inr (.inr hparam)
    · cases h

/-! ## Operands -/

theorem Constant.materialize_eq_error {k : Constant} {fault : Fault}
    (h : k.materialize = .error fault) :
    fault = .unsupportedConstant k.literal k.ty.defaulted := by
  unfold materialize at h
  split at h <;> try cases h
  · split at h <;> cases h
    rfl
  · rfl

/-- An operand cannot be evaluated because the value is not bound, because the constant has no
value at its type, or because the global variable has no cell. -/
theorem Context.eval_eq_error {c : Context} {f : Frame} {x : Operand} {fault : Fault}
    (h : c.eval f x = .error fault) :
    (∃ v, x = .value v ∧ ¬ f.Bound v ∧ fault = .unboundValue v) ∨
      (∃ k, x = .constant k ∧ fault = .unsupportedConstant k.literal k.ty.defaulted) ∨
      ∃ g, x = .global g ∧ c.globalAddress g = .error fault := by
  cases x with
  | value v =>
      refine .inl ⟨v, rfl, ?_⟩
      simp only [eval, Frame.lookup] at h
      split at h
      · cases h
      · rename_i hnone
        cases h
        refine ⟨?_, rfl⟩
        rintro ⟨y, hy⟩
        rw [hnone] at hy
        cases hy
  | constant k => exact .inr (.inl ⟨k, rfl, Constant.materialize_eq_error h⟩)
  | global g =>
      refine .inr (.inr ⟨g, rfl, ?_⟩)
      simp only [eval] at h
      cases ha : c.globalAddress g with
      | ok a => simp [ha, Except.map] at h
      | error e => simpa [ha, Except.map] using h

theorem Context.evalAll_eq_error {c : Context} {f : Frame} {xs : List Operand} {fault : Fault}
    (h : c.evalAll f xs = .error fault) : ∃ x ∈ xs, c.eval f x = .error fault := by
  induction xs with
  | nil => cases h
  | cons x xs ih =>
      rcases bind_eq_error h with hx | ⟨v, -, h⟩
      · exact ⟨x, List.mem_cons_self, hx⟩
      · rcases bind_eq_error h with hxs | ⟨vs, -, h⟩
        · obtain ⟨y, hy, hfault⟩ := ih hxs
          exact ⟨y, List.mem_cons_of_mem _ hy, hfault⟩
        · cases h

theorem Context.evalAll_length {c : Context} {f : Frame} {xs : List Operand} {vs : List Value}
    (h : c.evalAll f xs = .ok vs) : vs.length = xs.length := by
  induction xs generalizing vs with
  | nil =>
      cases h
      rfl
  | cons x xs ih =>
      obtain ⟨v, -, h⟩ := bind_eq_ok h
      obtain ⟨ws, hws, h⟩ := bind_eq_ok h
      cases h
      rw [List.length_cons, List.length_cons, ih hws]

theorem Context.evalAddress_eq_error {c : Context} {f : Frame} {x : Operand} {fault : Fault}
    (h : c.evalAddress f x = .error fault) :
    c.eval f x = .error fault ∨ ∃ k, fault = .typeMismatch .store .pointer k := by
  rcases bind_eq_error h with hx | ⟨v, -, h⟩
  · exact .inl hx
  · cases v <;> cases h <;> exact .inr ⟨_, rfl⟩

theorem Context.evalCondition_eq_error {c : Context} {f : Frame} {x : Operand} {fault : Fault}
    (h : c.evalCondition f x = .error fault) :
    c.eval f x = .error fault ∨ ∃ k, fault = .typeMismatch .branch .bool k := by
  rcases bind_eq_error h with hx | ⟨v, -, h⟩
  · exact .inl hx
  · cases v <;> cases h <;> exact .inr ⟨_, rfl⟩

theorem Context.evalResult_eq_error {c : Context} {f : Frame} {xs : List Operand} {fault : Fault}
    (h : c.evalResult f xs = .error fault) :
    (∃ x ∈ xs, c.eval f x = .error fault) ∨ fault = .multipleResults xs.length := by
  match xs with
  | [] => cases h
  | [x] => exact .inl ⟨x, List.mem_cons_self, h⟩
  | x :: y :: ys =>
      cases h
      exact .inr rfl

/-! ## Operators and cells -/

/-- The faults that an operation raises by itself, once its operands have values. -/
inductive Operation.CanRaise : Operation → Fault → Prop
  | storeNil (a v : Operand) : CanRaise (.store a v) .nilDereference
  | storeMismatch (a v : Operand) (l r : Kind) :
      CanRaise (.store a v) (.typeMismatch .store l r)
  | loadNil (x : Operand) : CanRaise (.unary .load x) .nilDereference
  | invalidUnary (op : UnaryOp) (x : Operand) (k : Kind) :
      CanRaise (.unary op x) (.invalidUnary op k)
  | division {op : BinaryOp} (x y : Operand) (h : op = .quo ∨ op = .rem) :
      CanRaise (.binary op x y) .divisionByZero
  | binaryMismatch (op : BinaryOp) (x y : Operand) (l r : Kind) :
      CanRaise (.binary op x y) (.typeMismatch (.binary op) l r)
  | invalidBinary (op : BinaryOp) (x y : Operand) (k : Kind) :
      CanRaise (.binary op x y) (.invalidBinary op k)
  | conversion (ty : Ty) (x : Operand) : CanRaise (.convert ty x) (.unsupportedConversion ty)
  | manyResults (xs : List Operand) : CanRaise (.ret xs) (.multipleResults xs.length)
  | branchMismatch (x : Operand) (onTrue onFalse : BlockId) (k : Kind) :
      CanRaise (.branch x onTrue onFalse) (.typeMismatch .branch .bool k)

theorem Memory.read_eq_error {m : Memory} {a : Address} {fault : Fault}
    (h : m.read a = .error fault) : fault = .nilDereference := by
  unfold read at h
  split at h <;> cases h
  rfl

theorem Memory.write_eq_error {m : Memory} {a : Address} {v : Value} {fault : Fault}
    (h : m.write a v = .error fault) :
    fault = .nilDereference ∨ ∃ l r, fault = .typeMismatch .store l r := by
  unfold write at h
  split at h
  · cases h
    exact .inl rfl
  · split at h
    · cases h
      exact .inl rfl
    · split at h <;> cases h
      exact .inr ⟨_, _, rfl⟩

theorem UnaryOp.eval_eq_error {op : UnaryOp} {m : Memory} {v : Value} {fault : Fault}
    (x : Operand) (h : op.eval m v = .error fault) :
    (Operation.unary op x).CanRaise fault := by
  unfold eval at h
  split at h <;> try cases h
  · rw [Memory.read_eq_error h]
    exact .loadNil x
  · exact .invalidUnary _ _ _

theorem BinaryOp.onWords_eq_error {op : BinaryOp} {t : IntType} {a b : BitVec t.bits}
    {fault : Fault} (h : op.onWords t a b = .error fault) :
    (op = .quo ∨ op = .rem) ∧ b = 0 ∧ fault = .divisionByZero := by
  cases op with
  | quo =>
      simp only [onWords] at h
      split at h <;> cases h
      rename_i hb
      exact ⟨.inl rfl, hb, rfl⟩
  | rem =>
      simp only [onWords] at h
      split at h <;> cases h
      rename_i hb
      exact ⟨.inr rfl, hb, rfl⟩
  | _ => cases h

theorem BinaryOp.eval_eq_error {op : BinaryOp} {l r : Value} {fault : Fault} (x y : Operand)
    (h : op.eval l r = .error fault) : (Operation.binary op x y).CanRaise fault := by
  unfold eval at h
  split at h
  · split at h
    · obtain ⟨hop, -, rfl⟩ := onWords_eq_error h
      exact .division x y hop
    · cases h
      exact .binaryMismatch _ _ _ _ _
  -- floating-point numbers of either type, strings, truth values and addresses
  iterate 5
    · dsimp only at h
      split at h <;> cases h
      exact .invalidBinary _ _ _ _
  · cases h
    exact .binaryMismatch _ _ _ _ _

/-! ## Phis -/

/-- A phi cannot take its operand because no edge comes from the previous block, or because the
operand of an edge that does cannot be evaluated. -/
theorem Context.selectEdge_eq_error {c : Context} {f : Frame} {edges : List PhiEdge}
    {fault : Fault} (h : c.selectEdge f edges = .error fault) :
    (∃ e ∈ edges, some e.pred = f.previous ∧ c.eval f e.operand = .error fault) ∨
      ((∀ e ∈ edges, some e.pred ≠ f.previous) ∧ fault = .noPhiEdge f.previous) := by
  unfold selectEdge at h
  split at h
  · rename_i e he
    have hpred : some e.pred = f.previous := by simpa using List.find?_some he
    exact .inl ⟨e, List.mem_of_find?_eq_some he, hpred, h⟩
  · rename_i hnone
    cases h
    refine .inr ⟨fun e he => ?_, rfl⟩
    simpa using List.find?_eq_none.mp hnone e he

theorem Context.readPhis_eq_ok {c : Context} {f : Frame} {name : String} {id : BlockId} {k : Nat}
    {is : List Instr} {values : List (Option ValueId × Value)}
    (h : c.readPhis f name id k is = .ok values) :
    values.map Prod.fst = (is.takeWhile fun i => i.op.isPhi).map Instr.dest := by
  fun_induction readPhis c f name id k is generalizing values with
  | case1 => cases h; rfl
  | case2 k i rest edges hop fault hsel => cases h
  | case3 k i rest edges hop v hsel ih =>
      cases hrest : c.readPhis f name id (k + 1) rest with
      | error failure => simp [hrest, Except.map] at h
      | ok tail =>
          simp only [hrest, Except.map, Except.ok.injEq] at h
          rw [← h, List.map_cons, ih hrest, List.takeWhile_cons]
          simp [hop, Operation.isPhi]
  | case4 k i rest hop =>
      -- the first instruction that is no phi ends the group
      cases h
      have hnot : i.op.isPhi = false := by
        cases hi : i.op with
        | phi edges => exact absurd hi (hop edges)
        | _ => rfl
      simp [hnot]

theorem Context.readPhis_eq_error {c : Context} {f : Frame} {name : String} {id : BlockId}
    {k : Nat} {is : List Instr} {failure : Failure}
    (h : c.readPhis f name id k is = .error failure) :
    ∃ j i edges fault, is[j]? = some i ∧ i.op = .phi edges ∧
      c.selectEdge f edges = .error fault ∧ failure = ⟨fault, some ⟨name, id, k + j⟩⟩ := by
  fun_induction readPhis c f name id k is with
  | case1 => cases h
  | case2 k i rest edges hop fault hsel =>
      cases h
      exact ⟨0, i, edges, fault, rfl, hop, hsel, rfl⟩
  | case3 k i rest edges hop v hsel ih =>
      cases hrest : c.readPhis f name id (k + 1) rest with
      | ok tail => simp [hrest, Except.map] at h
      | error failure' =>
          simp only [hrest, Except.map, Except.error.injEq] at h
          obtain ⟨j, i', edges', fault, hj, hop', hsel', hfail⟩ := ih (h ▸ hrest)
          refine ⟨j + 1, i', edges', fault, by simpa using hj, hop', hsel', ?_⟩
          rw [hfail, Nat.add_assoc, Nat.add_comm 1 j]
  | case4 => cases h

/-- The phis at the head, executed as a group, grow the frame by their results. -/
theorem Context.resolvePhis_eq_ok {c : Context} {function : Function} {f f' : Frame} {b : Block}
    {n : Nat} (h : c.resolvePhis function f b = .ok (f', n)) :
    f.Grows f' ∧ n = b.headPhis.length ∧
      ∀ i ∈ b.headPhis, ∀ v, i.dest = some v → f'.Bound v := by
  unfold resolvePhis at h
  split at h
  · cases h
  · rename_i values hread
    split at h
    · cases h
    · rename_i g hdef
      cases h
      have hdests : values.map Prod.fst = b.headPhis.map Instr.dest := readPhis_eq_ok hread
      obtain ⟨hgrows, hbound⟩ := Frame.defineAll_eq_ok hdef
      refine ⟨hgrows, ?_, fun i hi v hv => hbound v ?_⟩
      · simpa using congrArg List.length hdests
      · rw [hdests, ← hv]
        exact List.mem_map_of_mem hi

/-- The phis at the head fail because one cannot take its operand, which is then to blame, or
because the frame has no room for a result. -/
theorem Context.resolvePhis_eq_error {c : Context} {function : Function} {f : Frame} {b : Block}
    {failure : Failure} (h : c.resolvePhis function f b = .error failure) :
    (∃ j i edges fault, b.instrs[j]? = some i ∧ i.op = .phi edges ∧
        c.selectEdge f edges = .error fault ∧
        failure = ⟨fault, some ⟨function.name, b.id, j⟩⟩) ∨
      ∃ i ∈ b.instrs, ∃ v, i.dest = some v ∧ f.slots.size ≤ v ∧
        failure = ⟨.unboundValue v, none⟩ := by
  unfold resolvePhis at h
  split at h
  · rename_i failure' hread
    cases h
    obtain ⟨j, i, edges, fault, hj, hop, hsel, hfail⟩ := readPhis_eq_error hread
    exact .inl ⟨j, i, edges, fault, hj, hop, hsel, by rw [hfail, Nat.zero_add]⟩
  · rename_i values hread
    split at h
    · rename_i fault hdef
      cases h
      obtain ⟨v, hv, hle, rfl⟩ := Frame.defineAll_eq_error hdef
      rw [readPhis_eq_ok hread] at hv
      obtain ⟨i, hi, hdest⟩ := List.mem_map.mp hv
      exact .inr ⟨i, (List.takeWhile_prefix _).subset hi, v, hdest, hle, rfl⟩
    · cases h

/-! ## Instructions -/

/-- Whether the machine binds the result of the operation: those of the operators, of calls and
of phis are bound, and the other operations have none. -/
def Operation.yieldsValue : Operation → Bool
  | unary _ _ | binary _ _ _ | call _ _ | phi _ => true
  | _ => false

theorem Operation.isTerminator_of_yieldsValue {op : Operation} (h : op.yieldsValue = true) :
    op.isTerminator = false := by
  cases op <;> first | rfl | cases h

/-- What executing an instruction can lead to, with all that has to succeed for it. -/
inductive Context.Executes (c : Context) (f : Frame) (m : Memory) (i : Instr) : Effect → Prop
  | store {addr x : Operand} {a : Address} {v : Value} {m' : Memory}
      (hop : i.op = .store addr x) (ha : c.evalAddress f addr = .ok a)
      (hv : c.eval f x = .ok v) (hm : m.write a v = .ok m') : Executes c f m i (.proceed f m')
  | unary {op : UnaryOp} {x : Operand} {v r : Value} {f' : Frame}
      (hop : i.op = .unary op x) (hv : c.eval f x = .ok v) (hr : op.eval m v = .ok r)
      (hf : f.define i.dest r = .ok f') : Executes c f m i (.proceed f' m)
  | binary {op : BinaryOp} {x y : Operand} {l r v : Value} {f' : Frame}
      (hop : i.op = .binary op x y) (hl : c.eval f x = .ok l) (hr : c.eval f y = .ok r)
      (hv : op.eval l r = .ok v) (hf : f.define i.dest v = .ok f') :
      Executes c f m i (.proceed f' m)
  | phi {edges : List PhiEdge} {v : Value} {f' : Frame}
      (hop : i.op = .phi edges) (hv : c.selectEdge f edges = .ok v)
      (hf : f.define i.dest v = .ok f') : Executes c f m i (.proceed f' m)
  | call {callee : Callee} {xs : List Operand} {vs : List Value}
      (hop : i.op = .call callee xs) (hvs : c.evalAll f xs = .ok vs) :
      Executes c f m i (.call callee vs)
  | ret {xs : List Operand} {v : Value}
      (hop : i.op = .ret xs) (hv : c.evalResult f xs = .ok v) : Executes c f m i (.exit v)
  | branch {x : Operand} {onTrue onFalse : BlockId} {b : Bool}
      (hop : i.op = .branch x onTrue onFalse) (hb : c.evalCondition f x = .ok b) :
      Executes c f m i (.goto (if b then onTrue else onFalse))
  | jump {target : BlockId} (hop : i.op = .jump target) : Executes c f m i (.goto target)

theorem Context.executes_of_execute {c : Context} {f : Frame} {m : Memory} {i : Instr}
    {e : Effect} (h : c.execute f m i = .ok e) : c.Executes f m i e := by
  unfold execute at h
  split at h
  · rename_i hop
    obtain ⟨a, ha, h⟩ := bind_eq_ok h
    obtain ⟨v, hv, h⟩ := bind_eq_ok h
    obtain ⟨m', hm, h⟩ := bind_eq_ok h
    cases h
    exact .store hop ha hv hm
  · rename_i hop
    obtain ⟨v, hv, h⟩ := bind_eq_ok h
    obtain ⟨r, hr, h⟩ := bind_eq_ok h
    obtain ⟨f', hf, h⟩ := bind_eq_ok h
    cases h
    exact .unary hop hv hr hf
  · rename_i hop
    obtain ⟨l, hl, h⟩ := bind_eq_ok h
    obtain ⟨r, hr, h⟩ := bind_eq_ok h
    obtain ⟨v, hv, h⟩ := bind_eq_ok h
    obtain ⟨f', hf, h⟩ := bind_eq_ok h
    cases h
    exact .binary hop hl hr hv hf
  · rename_i hop
    obtain ⟨vs, hvs, h⟩ := bind_eq_ok h
    cases h
    exact .call hop hvs
  · cases h
  · rename_i hop
    obtain ⟨v, hv, h⟩ := bind_eq_ok h
    obtain ⟨f', hf, h⟩ := bind_eq_ok h
    cases h
    exact .phi hop hv hf
  · rename_i hop
    obtain ⟨v, hv, h⟩ := bind_eq_ok h
    cases h
    exact .ret hop hv
  · rename_i hop
    obtain ⟨b, hb, h⟩ := bind_eq_ok h
    cases h
    exact .branch hop hb
  · rename_i hop
    cases h
    exact .jump hop

/-- Control proceeds within the block after a store, which leaves the frame as it is, or after an
operation whose result is bound, which leaves the memory as it is. -/
theorem Context.execute_eq_proceed {c : Context} {f f' : Frame} {m m' : Memory} {i : Instr}
    (h : c.execute f m i = .ok (.proceed f' m')) :
    (i.op.isTerminator = false ∧ i.op.yieldsValue = false ∧ f' = f ∧
        ∃ a v, m.write a v = .ok m') ∨
      (i.op.yieldsValue = true ∧ m' = m ∧ ∃ v, f.define i.dest v = .ok f') := by
  cases executes_of_execute h with
  | store hop ha hv hm => exact .inl ⟨by rw [hop]; rfl, by rw [hop]; rfl, rfl, _, _, hm⟩
  | unary hop hv hr hf => exact .inr ⟨by rw [hop]; rfl, rfl, _, hf⟩
  | binary hop hl hr hv hf => exact .inr ⟨by rw [hop]; rfl, rfl, _, hf⟩
  | phi hop hv hf => exact .inr ⟨by rw [hop]; rfl, rfl, _, hf⟩

/-- Control passes to a block that the instruction names. -/
theorem Context.execute_eq_goto {c : Context} {f : Frame} {m : Memory} {i : Instr} {t : BlockId}
    (h : c.execute f m i = .ok (.goto t)) : t ∈ i.op.targets := by
  generalize he : Effect.goto t = e at h
  cases executes_of_execute h with
  | branch hop hb =>
      cases he
      rw [hop]
      simp only [Operation.targets]
      split <;> simp
  | jump hop =>
      cases he
      rw [hop]
      exact List.mem_singleton_self _
  | _ => cases he

theorem Context.execute_eq_exit {c : Context} {f : Frame} {m : Memory} {i : Instr} {v : Value}
    (h : c.execute f m i = .ok (.exit v)) : ∃ xs, i.op = .ret xs := by
  cases executes_of_execute h with
  | ret hop hv => exact ⟨_, hop⟩

theorem Context.execute_eq_call {c : Context} {f : Frame} {m : Memory} {i : Instr}
    {callee : Callee} {vs : List Value} (h : c.execute f m i = .ok (.call callee vs)) :
    ∃ xs, i.op = .call callee xs ∧ c.evalAll f xs = .ok vs := by
  cases executes_of_execute h with
  | call hop hvs => exact ⟨_, hop, hvs⟩

/-- Why an instruction fails. -/
inductive Context.Cause (c : Context) (f : Frame) (i : Instr) : Fault → Prop
  | edge {edges : List PhiEdge} {fault : Fault} (hop : i.op = .phi edges)
      (h : c.selectEdge f edges = .error fault) : Cause c f i fault
  | operand {x : Operand} {fault : Fault} (hop : i.op.isPhi = false) (hx : i.op.Uses x)
      (h : c.eval f x = .error fault) : Cause c f i fault
  | dest {v : Value} {fault : Fault} (h : f.define i.dest v = .error fault) : Cause c f i fault
  | own {fault : Fault} (h : i.op.CanRaise fault) : Cause c f i fault

/-- **Every fault of an instruction has one of the four causes.** -/
theorem Context.cause_of_execute {c : Context} {f : Frame} {m : Memory} {i : Instr}
    {fault : Fault} (h : c.execute f m i = .error fault) : c.Cause f i fault := by
  obtain ⟨dest, op⟩ := i
  cases op with
  | store addr x =>
      rcases bind_eq_error h with h | ⟨a, -, h⟩
      · rcases evalAddress_eq_error h with h | ⟨k, rfl⟩
        · exact .operand rfl (.storeAddr _ _) h
        · exact .own (.storeMismatch _ _ _ _)
      rcases bind_eq_error h with h | ⟨v, -, h⟩
      · exact .operand rfl (.storeValue _ _) h
      rcases bind_eq_error h with h | ⟨m', -, h⟩
      · rcases Memory.write_eq_error h with rfl | ⟨l, r, rfl⟩
        · exact .own (.storeNil _ _)
        · exact .own (.storeMismatch _ _ _ _)
      cases h
  | unary op x =>
      rcases bind_eq_error h with h | ⟨v, -, h⟩
      · exact .operand rfl (.unary _ _) h
      rcases bind_eq_error h with h | ⟨r, -, h⟩
      · exact .own (UnaryOp.eval_eq_error x h)
      rcases bind_eq_error h with h | ⟨f', -, h⟩
      · exact .dest h
      cases h
  | binary op x y =>
      rcases bind_eq_error h with h | ⟨l, -, h⟩
      · exact .operand rfl (.binaryLeft _ _ _) h
      rcases bind_eq_error h with h | ⟨r, -, h⟩
      · exact .operand rfl (.binaryRight _ _ _) h
      rcases bind_eq_error h with h | ⟨v, -, h⟩
      · exact .own (BinaryOp.eval_eq_error x y h)
      rcases bind_eq_error h with h | ⟨f', -, h⟩
      · exact .dest h
      cases h
  | call callee args =>
      rcases bind_eq_error h with h | ⟨vs, -, h⟩
      · obtain ⟨x, hx, h⟩ := evalAll_eq_error h
        exact .operand rfl (.callArg _ hx) h
      cases h
  | convert ty x =>
      cases h
      exact .own (.conversion _ _)
  | phi edges =>
      rcases bind_eq_error h with h | ⟨v, -, h⟩
      · exact .edge rfl h
      rcases bind_eq_error h with h | ⟨f', -, h⟩
      · exact .dest h
      cases h
  | ret results =>
      rcases bind_eq_error h with h | ⟨v, -, h⟩
      · rcases evalResult_eq_error h with ⟨x, hx, h⟩ | rfl
        · exact .operand rfl (.retResult hx) h
        · exact .own (.manyResults _)
      cases h
  | branch x onTrue onFalse =>
      rcases bind_eq_error h with h | ⟨b, -, h⟩
      · rcases evalCondition_eq_error h with h | ⟨k, rfl⟩
        · exact .operand rfl (.branchCond _ _ _) h
        · exact .own (.branchMismatch _ _ _ _)
      cases h
  | jump target => cases h

end SsaMachine
