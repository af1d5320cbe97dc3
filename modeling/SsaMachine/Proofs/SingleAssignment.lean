import SsaMachine.Proofs.Dominance
import SsaMachine.Proofs.ParallelCopy
import SsaMachine.Proofs.Span

set_option autoImplicit false

/-! # Slots are assigned by their definitions only

Nothing in the machine keeps an instruction from binding a slot that is bound already, and a loop
does that all the time. That each value of a call still has a single source is due to the
verifier, which counts the definitions of a function over all its blocks and parameters. This
file follows one call through a run (`State.Shows`) and says when its frame changes
(`Engine.slots_change_only_by_definition`) and what the verifier's count is worth for reading a slot
(`Engine.completed_definition_binds_iff`).

* **Definitions.** In a well-formed function an instruction with a destination is the only one with
  that destination, and the destination is no parameter (`Program.BodyWellFormed.defines`).
* **Advances.** A call advances by the phis at the head of a block or by one instruction. A slot
  that is different afterwards belongs to one of them (`Context.Advances.faces_of_change`); what
  they give is bound (`Context.Advances.bound_of_faces`).
* **Runs.** Between two states of a run the call either waits, with its frame as it is, or it
  advances. So both facts hold for every step of a run, whatever is called in between.

The verifier counts the destination of every instruction, while the machine binds results only for
operators, calls and phis. A store or a terminator may therefore define a value in the eyes of the
verifier that is never bound.
-/

namespace SsaMachine

/-! ## The definition of a value -/

/-- The instruction at a position of a block. -/
def Function.instr? (f : Function) (id : BlockId) (k : Nat) : Option Instr :=
  (f.block? id).bind fun b => b.instrs[k]?

/-- The instruction `x`, at position `k` of the block `id`, is the only one of the function with
the destination `v`, which is no parameter. -/
structure Function.Defines (f : Function) (v : ValueId) (id : BlockId) (k : Nat) (x : Instr) :
    Prop where
  instr : f.instr? id k = some x
  dest : x.dest = some v
  params_le : f.params.length ≤ v
  only : ∀ id' k' x', f.instr? id' k' = some x' → x'.dest = some v → id' = id ∧ k' = k

theorem Function.instr?_eq_some {f : Function} {id : BlockId} {k : Nat} {x : Instr} :
    f.instr? id k = some x ↔ ∃ b, f.block? id = some b ∧ b.instrs[k]? = some x := by
  simp [instr?, Option.bind_eq_some_iff]

/-- In a list without two entries that have a property, the entry with it has one position. -/
theorem index_eq_of_pairwise {α : Type} {P : α → Prop} {l : List α}
    (h : l.Pairwise fun x y => ¬ (P x ∧ P y)) {k k' : Nat} {x x' : α} (hk : l[k]? = some x)
    (hk' : l[k']? = some x') (hx : P x) (hx' : P x') : k = k' := by
  obtain ⟨hlt, rfl⟩ := List.getElem?_eq_some_iff.mp hk
  obtain ⟨hlt', rfl⟩ := List.getElem?_eq_some_iff.mp hk'
  rcases Nat.lt_trichotomy k k' with hless | heq | hless
  · exact absurd ⟨hx, hx'⟩ (List.pairwise_iff_getElem.mp h k k' hlt hlt' hless)
  · exact heq
  · exact absurd ⟨hx', hx⟩ (List.pairwise_iff_getElem.mp h k' k hlt' hlt hless)

/-- **A destination has one instruction in a function that defines no value twice.** -/
theorem Function.defines_of_nodup {f : Function} (hnodup : f.definitions.Nodup) {id : BlockId}
    {k : Nat} {x : Instr} {v : ValueId} (hx : f.instr? id k = some x) (hv : x.dest = some v) :
    f.Defines v id k x := by
  obtain ⟨b, hb, hk⟩ := Function.instr?_eq_some.mp hx
  obtain ⟨-, hdests, hdisjoint⟩ := List.nodup_append.mp hnodup
  obtain ⟨hwithin, hacross⟩ := List.nodup_flatMap.mp hdests
  have hmem : v ∈ b.instrs.filterMap Instr.dest :=
    List.mem_filterMap.mpr ⟨x, List.mem_of_getElem? hk, hv⟩
  refine ⟨hx, hv, ?_, fun id' k' x' hx' hv' => ?_⟩
  · by_contra hlt
    have hparam : v ∈ List.range f.params.length := List.mem_range.mpr (Nat.lt_of_not_le hlt)
    have hflat : v ∈ f.blocks.flatMap fun b => b.instrs.filterMap Instr.dest :=
      List.mem_flatMap.mpr ⟨b, f.mem_blocks_of_block? hb, hmem⟩
    exact hdisjoint v hparam v hflat rfl
  · obtain ⟨b', hb', hk'⟩ := Function.instr?_eq_some.mp hx'
    have hmem' : v ∈ b'.instrs.filterMap Instr.dest :=
      List.mem_filterMap.mpr ⟨x', List.mem_of_getElem? hk', hv'⟩
    -- two blocks with the destination are one, and so are two instructions of a block
    have hid : id' = id := by
      refine index_eq_of_pairwise (P := fun b => v ∈ b.instrs.filterMap Instr.dest)
        (hacross.imp fun hdis hboth => ?_) hb' hb hmem' hmem
      exact hdis hboth.1 hboth.2
    subst hid
    rw [hb] at hb'
    cases hb'
    refine ⟨rfl, index_eq_of_pairwise (P := fun x => x.dest = some v) ?_ hk' hk hv' hv⟩
    have hnodup := List.pairwise_filterMap.mp (hwithin b (f.mem_blocks_of_block? hb))
    exact hnodup.imp fun hne hboth => hne v hboth.1 v hboth.2 rfl

theorem Program.BodyWellFormed.defines {p : Program} {f : Function} (hf : p.BodyWellFormed f)
    {id : BlockId} {k : Nat} {x : Instr} {v : ValueId} (hx : f.instr? id k = some x)
    (hv : x.dest = some v) : f.Defines v id k x :=
  Function.defines_of_nodup hf.definitions_nodup hx hv

/-! ## The values of a call at its start -/

/-- Binding the arguments puts them into consecutive slots, and changes no other. -/
theorem Activation.bindParams_value? {name : String} {k : Nat} {f f' : Frame}
    {l : List (Param × Value)} (h : bindParams name k f l = .ok f') :
    (∀ u < k, f'.value? u = f.value? u) ∧
      ∀ j, f'.value? (k + j) = ((l.map Prod.snd)[j]?).or (f.value? (k + j)) := by
  induction l generalizing k f with
  | nil =>
      cases h
      exact ⟨fun u _ => rfl, fun j => by simp⟩
  | cons pa rest ih =>
      obtain ⟨param, arg⟩ := pa
      by_cases hadmit : param.ty.admits arg = true
      · cases hbind : f.bind k arg with
        | error fault => simp [bindParams, hadmit, hbind] at h
        | ok g =>
            have hrest : bindParams name (k + 1) g rest = .ok f' := by
              simpa [bindParams, hadmit, hbind] using h
            have hself : g.value? k = some arg := Frame.value?_bind_self hbind
            have hother : ∀ u, u ≠ k → g.value? u = f.value? u :=
              fun u hu => Frame.value?_bind_of_ne hbind hu
            obtain ⟨hbelow, habove⟩ := ih hrest
            refine ⟨fun u hu => ?_, fun j => ?_⟩
            · rw [hbelow u (by omega), hother u (by omega)]
            · cases j with
              | zero =>
                  rw [Nat.add_zero, hbelow k (Nat.lt_succ_self k), hself]
                  rfl
              | succ j =>
                  have hindex : k + (j + 1) = k + 1 + j := by omega
                  rw [hindex, habove j, hother _ (by omega)]
                  rfl
      · simp [bindParams, hadmit] at h

/-- **A call starts with its arguments in the first slots, and with all others empty.** -/
theorem Activation.enter_value? {f : Function} {args : List Value} {a : Activation}
    (h : enter f args = .ok a) (u : ValueId) : a.frame.value? u = args[u]? := by
  unfold enter at h
  split at h
  · cases h
  · rename_i harity
    split at h
    · cases h
    · rename_i frame hbind
      cases h
      have hvalues := (bindParams_value? hbind).2 u
      have hargs : (f.params.zip args).map Prod.snd = args := by
        refine List.map_snd_zip ?_
        omega
      rw [hargs, Nat.zero_add, Frame.value?_start, Option.or_none] at hvalues
      exact hvalues

theorem Activation.params_length_of_enter {f : Function} {args : List Value} {a : Activation}
    (h : enter f args = .ok a) : f.params.length = args.length := by
  unfold enter at h
  split at h
  · cases h
  · rename_i harity
    exact Decidable.not_not.mp harity

/-! ## How the frame of a call changes -/

/-- The call is about to execute the instruction `x`, at position `k` of the block `id`: it stands
there, or it stands at the head of the block and `x` is one of the phis there. -/
inductive Activation.Faces (a : Activation) (id : BlockId) (k : Nat) (x : Instr) : Prop
  | phi {b : Block} (hid : a.frame.block = some id) (hb : a.function.block? id = some b)
      (hp : a.point = .head) (hx : b.headPhis[k]? = some x) : Faces a id k x
  | instr {b : Block} (hat : a.At id b k x) : Faces a id k x

theorem Activation.Faces.instr? {a : Activation} {id : BlockId} {k : Nat} {x : Instr}
    (h : a.Faces id k x) : a.function.instr? id k = some x := by
  cases h with
  | @phi b hid hb hp hx =>
      obtain ⟨rest, hrest⟩ : b.headPhis <+: b.instrs := List.takeWhile_prefix _
      refine Function.instr?_eq_some.mpr ⟨b, hb, ?_⟩
      rw [← hrest, List.getElem?_append_left (List.getElem?_eq_some_iff.mp hx).1, hx]
  | instr hat => exact Function.instr?_eq_some.mpr ⟨_, hat.block, hat.instr⟩

theorem Activation.At.point_ne_head {a : Activation} {id : BlockId} {b : Block} {k : Nat}
    {x : Instr} (h : a.At id b k x) : a.point ≠ .head := by
  rw [h.point]
  simp

/-- A call stands at one instruction. -/
theorem Activation.At.unique {a : Activation} {id id' : BlockId} {b b' : Block} {k k' : Nat}
    {x x' : Instr} (h : a.At id b k x) (h' : a.At id' b' k' x') : x = x' := by
  have hid : id = id' := Option.some.inj (h.current.symm.trans h'.current)
  have hk : k = k' := Point.instr.inj (h.point.symm.trans h'.point)
  subst hid hk
  have hb : b = b' := Option.some.inj (h.block.symm.trans h'.block)
  subst hb
  exact Option.some.inj (h.instr.symm.trans h'.instr)

theorem Block.yieldsValue_of_mem_headPhis {b : Block} {x : Instr} (h : x ∈ b.headPhis) :
    x.op.yieldsValue = true := by
  have hphi := isPhi_of_mem_headPhis h
  cases hop : x.op with
  | phi edges => rfl
  | _ => simp [hop, Operation.isPhi] at hphi

/-- What advancing does to the frame of a call: the phis at the head are assigned, the result of
one instruction is bound, or the instruction has none and all values stay. -/
inductive Context.Rebinds (c : Context) (a : Activation) (f' : Frame) : Prop
  | phis {id : BlockId} {b : Block} {n : Nat} (hid : a.frame.block = some id)
      (hb : a.function.block? id = some b) (hp : a.point = .head)
      (h : c.resolvePhis a.function a.frame b = .ok (f', n)) : Rebinds c a f'
  | result {id : BlockId} {b : Block} {k : Nat} {x : Instr} {u : Value} (hat : a.At id b k x)
      (hyields : x.op.yieldsValue = true) (h : a.frame.define x.dest u = .ok f') : Rebinds c a f'
  | nothing {id : BlockId} {b : Block} {k : Nat} {x : Instr} (hat : a.At id b k x)
      (hyields : x.op.yieldsValue = false) (h : ∀ v, f'.value? v = a.frame.value? v) :
      Rebinds c a f'

section Advancing

variable {p : Program} {f : Function} {c : Context} {a a' : Activation} {v : ValueId}

theorem Context.Advances.rebinds (h : c.Advances a a') : c.Rebinds a a'.frame := by
  cases h with
  | move hm =>
      cases hm with
      | phis hid hb hp hphis => exact .phis hid hb hp hphis
      | proceed hat hex =>
          rcases execute_eq_proceed hex with ⟨-, hnot, rfl, -⟩ | ⟨hyields, -, u, hdef⟩
          · exact .nothing hat hnot fun v => rfl
          · exact .result hat hyields hdef
      | goto hat hex =>
          refine .nothing hat ?_ fun v => rfl
          cases executes_of_execute hex with
          | branch hop hb => rw [hop]; rfl
          | jump hop => rw [hop]; rfl
      | exit hat hex =>
          refine .nothing hat ?_ fun v => rfl
          cases executes_of_execute hex with
          | ret hop hv => rw [hop]; rfl
  | answer hc hv =>
      cases hc with
      | intro hat hex =>
          obtain ⟨g, hdef, rfl⟩ := Caller.resume_eq_ok hv
          obtain ⟨xs, hop, -⟩ := execute_eq_call hex
          exact .result hat (by rw [hop]; rfl) hdef

/-- **A slot changes only by an instruction that gives its value.** -/
theorem Context.Advances.faces_of_change (h : c.Advances a a') (hf : p.BodyWellFormed f)
    (ha : a.Placed f) (hne : a'.frame.value? v ≠ a.frame.value? v) :
    ∃ id k x, a.Faces id k x ∧ x.Gives v := by
  cases h.rebinds with
  | @phis id b n hid hb hp hphis =>
      obtain ⟨values, hreads, hdef, -⟩ := resolvePhis_eq_ok_iff.mp hphis
      have hroom : a.frame.RoomFor b.headPhis := hf.roomFor (ha.mem_blocks hb) ha.room
      -- the group assigns to the destinations of its phis, so `v` is one of them
      have hmem : some v ∈ values.map Prod.fst := by
        by_contra hnot
        exact hne ((hroom.assigned hreads hdef).kept v hnot)
      rw [map_fst_of_reads hreads] at hmem
      obtain ⟨x, hx, hdest⟩ := List.mem_map.mp hmem
      obtain ⟨k, hk⟩ := List.mem_iff_getElem?.mp hx
      exact ⟨id, k, x, .phi hid hb hp hk, hdest, Block.yieldsValue_of_mem_headPhis hx⟩
  | @result id b k x u hat hyields hdef =>
      refine ⟨id, k, x, .instr hat, ?_, hyields⟩
      by_contra hdest
      refine hne ((Frame.define_assigned hdef).kept v ?_)
      simpa [eq_comm] using hdest
  | nothing hat hyields hsame => exact absurd (hsame v) hne

/-- What is bound stays bound, to this value or another. -/
theorem Context.Advances.bound (h : c.Advances a a') (hv : a.frame.Bound v) : a'.frame.Bound v := by
  cases h.rebinds with
  | phis hid hb hp hphis => exact (resolvePhis_eq_ok hphis).1.bound v hv
  | result hat hyields hdef => exact (Frame.define_eq_ok hdef).1.bound v hv
  | nothing hat hyields hsame =>
      obtain ⟨u, hu⟩ := hv
      exact ⟨u, (hsame v).trans hu⟩

theorem Context.bound_of_reflTransGen (h : Relation.ReflTransGen c.Advances a a')
    (hv : a.frame.Bound v) : a'.frame.Bound v := by
  induction h with
  | refl => exact hv
  | tail _ hlast ih => exact hlast.bound ih

/-- An instruction that has been executed has bound what it gives. -/
theorem Context.Advances.bound_of_faces (h : c.Advances a a') {id : BlockId} {k : Nat}
    {x : Instr} (hx : a.Faces id k x) (hv : x.Gives v) : a'.frame.Bound v := by
  cases hx with
  | @phi b hid hb hp hx =>
      cases h.rebinds with
      | phis hid' hb' hp' hphis =>
          cases hid.symm.trans hid'
          cases hb.symm.trans hb'
          exact (resolvePhis_eq_ok hphis).2.2 x (List.mem_of_getElem? hx) v hv.1
      | result hat' => exact absurd hp hat'.point_ne_head
      | nothing hat' => exact absurd hp hat'.point_ne_head
  | instr hat =>
      cases h.rebinds with
      | phis hid' hb' hp' => exact absurd hp' hat.point_ne_head
      | result hat' hyields hdef =>
          rw [hat.unique hat'] at hv
          exact (Frame.define_eq_ok hdef).2 v hv.1
      | nothing hat' hyields =>
          rw [hat.unique hat', Instr.Gives, hyields] at hv
          cases hv.2

/-- A slot changes only by its definition, which is an operator, a call or a phi. -/
theorem Context.Advances.defines_of_change (h : c.Advances a a') (hf : p.BodyWellFormed f)
    (ha : a.Placed f) (hne : a'.frame.value? v ≠ a.frame.value? v) :
    ∃ id k x, a.Faces id k x ∧ f.Defines v id k x ∧ x.op.yieldsValue = true := by
  obtain ⟨id, k, x, hx, hdest, hyields⟩ := h.faces_of_change hf ha hne
  exact ⟨id, k, x, hx, hf.defines (ha.function_eq ▸ hx.instr?) hdest, hyields⟩

end Advancing

/-! ## The values of a call during its life -/

section Living

variable {p : Program} {f : Function} {c : Context} {args : List Value} {a a' : Activation}

theorem Context.Life.params_length (h : c.Life f args a) : f.params.length = args.length := by
  induction h with
  | enter he => exact Activation.params_length_of_enter he
  | move _ _ ih => exact ih
  | answer _ _ _ ih => exact ih

theorem Context.Life.reflTransGen (h : c.Life f args a)
    (hadv : Relation.ReflTransGen c.Advances a a') : c.Life f args a' := by
  induction hadv with
  | refl => exact h
  | tail _ hlast ih => exact ih.advances hlast

/-- **A call keeps its arguments in the slots of its parameters.** -/
theorem Context.Life.value?_of_arg (hf : p.BodyWellFormed f) (h : c.Life f args a) {n : Nat}
    {v : Value} (hv : args[n]? = some v) : a.frame.value? n = some v := by
  have hn : n < f.params.length := by
    rw [h.params_length]
    exact (List.getElem?_eq_some_iff.mp hv).1
  refine h.induction_advances (P := fun a => a.frame.value? n = some v) ?_ ?_
  · intro a he
    rw [Activation.enter_value? he, hv]
  · intro a a' hlife ih hadv
    by_contra hne
    rw [← ih] at hne
    obtain ⟨id, k, x, -, hdef, -⟩ := hadv.defines_of_change hf (hlife.placed hf) hne
    exact Nat.not_le_of_lt hn hdef.params_le

/-- A value whose definition has no result is never bound. -/
theorem Context.Life.value?_eq_none (hf : p.BodyWellFormed f) (h : c.Life f args a)
    {v : ValueId} {id : BlockId} {k : Nat} {x : Instr} (hdef : f.Defines v id k x)
    (hnot : x.op.yieldsValue = false) : a.frame.value? v = none := by
  refine h.induction_advances (P := fun a => a.frame.value? v = none) ?_ ?_
  · intro a he
    rw [Activation.enter_value? he, List.getElem?_eq_none_iff, ← h.params_length]
    exact hdef.params_le
  · intro a a' hlife ih hadv
    by_contra hne
    rw [← ih] at hne
    obtain ⟨id', k', x', -, hdef', hyields⟩ := hadv.defines_of_change hf (hlife.placed hf) hne
    -- the instruction that has changed the slot would be the definition itself
    obtain ⟨rfl, rfl⟩ := hdef.only id' k' x' hdef'.instr hdef'.dest
    obtain rfl : x = x' := Option.some.inj (hdef.instr.symm.trans hdef'.instr)
    rw [hnot] at hyields
    cases hyields

end Living

/-! ## Steps of a run -/

/-- The step completes the instruction `x`, at position `k` of the block `id`, in the call directly
above `ws`, which goes on as `a'`. If `x` is a call of a function with a body, this is the step
that hands over its result. -/
def Context.Completes (c : Context) (ws : List Caller) (s : State) (id : BlockId) (k : Nat)
    (x : Instr) (a' : Activation) : Prop :=
  ∃ a r, s.Shows c ws a ∧ a.Faces id k x ∧ c.step s = ⟨.running a' ws, r⟩

theorem Context.Completes.exists_advances {c : Context} {ws : List Caller} {s : State}
    {id : BlockId} {k : Nat} {x : Instr} {a' : Activation} (h : c.Completes ws s id k x a') :
    ∃ a, s.Shows c ws a ∧ a.Faces id k x ∧ c.Advances a a' ∧ (c.step s).Shows c ws a' := by
  obtain ⟨a, r, hshows, hfaces, hs⟩ := h
  have hsus : (c.step s).Suspends ws := ⟨a', [], r, hs⟩
  rcases hshows.step hsus with ⟨m, callee, vs, w, -, hw⟩ | ⟨a'', r', hadv, hs'⟩
  · rw [hs] at hw
    exact absurd hw State.not_suspends_cons
  · rw [hs] at hs'
    cases hs'
    exact ⟨a, hshows, hfaces, hadv, hs ▸ .top r⟩

/-- The values of a call change in a step only by the completion of their definitions. -/
theorem State.Shows.completes_of_change {p : Program} {f : Function} {c : Context}
    {ws : List Caller} {s : State} {a a' : Activation} (hf : p.BodyWellFormed f)
    (ha : a.Placed f) (h : s.Shows c ws a) (h' : (c.step s).Shows c ws a') {v : ValueId}
    (hne : a'.frame.value? v ≠ a.frame.value? v) :
    ∃ id k x, c.Completes ws s id k x a' ∧ f.Defines v id k x ∧ x.op.yieldsValue = true := by
  rcases h.step h'.suspends with ⟨m, callee, vs, w, hc, hw⟩ | ⟨a'', r, hadv, hs⟩
  · -- the call waits, and is what it was
    rw [h'.unique (hc.shows hw)] at hne
    exact absurd rfl hne
  · obtain rfl : a' = a'' := h'.unique (hs ▸ .top r)
    obtain ⟨id, k, x, hfaces, hdef, hyields⟩ := hadv.defines_of_change hf ha hne
    exact ⟨id, k, x, ⟨a, r, h, hfaces, hs⟩, hdef, hyields⟩

/-- **Dynamic single assignment.** Take a verified program, any run of it, and any call in this run:
it enters the function `f` with the arguments `args`, above the waiting calls `ws`. At every
moment of the call, whether it is on top or waits for a call of its own, the slots of its
parameters hold the arguments. If a slot is different after the next step, then this step completes
the only instruction of `f` that has the slot as its destination, and that instruction is an
operator, a call or a phi. In particular no other instruction changes the slot, and nothing that
happens in the calls above does, be they calls of `f` itself. -/
theorem Engine.slots_change_only_by_definition {e : Engine} (hp : e.program.verify = .ok ())
    {callee : Callee} {args₀ : List Value} {i : Nat} {f : Function} {args : List Value}
    {a : Activation} {ws : List Caller} {r : Resources}
    (hrun : e.context.run i (e.context.start e.resources callee args₀) = ⟨.running a ws, r⟩)
    (henter : Activation.enter f args = .ok a) (n : Nat)
    (hsus : ∀ k ≤ n, (e.context.run k ⟨.running a ws, r⟩).Suspends ws) :
    ∃ a', (e.context.run n ⟨.running a ws, r⟩).Shows e.context ws a' ∧ a'.function = f ∧
      (∀ k < f.params.length, ∃ v, args[k]? = some v ∧ a'.frame.value? k = some v) ∧
      ∀ a'', (e.context.run (n + 1) ⟨.running a ws, r⟩).Shows e.context ws a'' →
        ∀ v, a''.frame.value? v ≠ a'.frame.value? v →
          ∃ id k x, e.context.Completes ws (e.context.run n ⟨.running a ws, r⟩) id k x a'' ∧
            f.Defines v id k x ∧ x.op.yieldsValue = true := by
  have hwf : e.context.program.WellFormed := Program.wellFormed_of_verify hp
  -- the call is one of a function of the program, and that function is `f`
  have hf : e.context.program.BodyWellFormed f := by
    obtain ⟨g, args', hmem, hbody, hlife⟩ := Context.lives_of_run hrun
    have hg := hwf.bodies g hmem hbody
    have hfg : f = g :=
      (Activation.enter_eq_ok henter).1.symm.trans (hlife.placed hg).function_eq
    exact hfg ▸ hg
  obtain ⟨a', hadv, hshows⟩ := Context.advances_of_suspends (.top r) n hsus
  have hlife : e.context.Life f args a' := (Context.Life.enter henter).reflTransGen hadv
  refine ⟨a', hshows, (hlife.placed hf).function_eq, fun k hk => ?_, fun a'' hshows' v hne => ?_⟩
  · rw [hlife.params_length] at hk
    have harg : args[k]? = some args[k] := List.getElem?_eq_getElem hk
    exact ⟨args[k], harg, hlife.value?_of_arg hf harg⟩
  · rw [Context.run_succ] at hshows'
    exact hshows.completes_of_change hf (hlife.placed hf) hshows' hne

namespace Descent

/-- Adds up the numbers from its argument down to zero, by calling itself. -/
def main : Function :=
  ⟨"main", [⟨"n", .int .int⟩],
    [⟨0, [⟨some 1, .binary (.compare .eq) (.value 0) (.int .int 0)⟩,
          ⟨none, .branch (.value 1) 1 2⟩], [], [1, 2]⟩,
     ⟨1, [⟨none, .ret [.int .int 0]⟩], [0], []⟩,
     ⟨2, [⟨some 2, .binary .sub (.value 0) (.int .int 1)⟩,
          ⟨some 3, .call (.function 0) [.value 2]⟩,
          ⟨some 4, .binary .add (.value 0) (.value 3)⟩,
          ⟨none, .ret [.value 4]⟩], [0], []⟩], 0, 5⟩

def engine : Engine :=
  .new ⟨[], [main]⟩ .unlimited

def number (n : Int) : Value :=
  .int (.ofInt .int n)

/-- The call with the argument one at its start. -/
def entered : Activation :=
  ⟨main, ⟨#[some (number 1), none, none, none, none], some 0, none, .unit⟩, .head⟩

/-- The same call while it waits for the call with the argument zero. -/
def waiting : Activation :=
  ⟨main, ⟨#[some (number 1), some (.bool false), some (number 0), none, none], some 2, some 0,
    .unit⟩, .instr 1⟩

/-- The same call with the answer. -/
def answered : Activation :=
  ⟨main, ⟨#[some (number 1), some (.bool false), some (number 0), some (number 0), none], some 2,
    some 0, .unit⟩, .instr 2⟩

end Descent

/-- The answer of the call to itself comes with the twelfth step. Until then the call waits with
what it has, and what is then new in its frame is due to the call instruction. -/
theorem Engine.slots_change_only_by_definition_descent :
    (Descent.engine.context.run 11 ⟨.running Descent.entered [], Descent.engine.resources⟩).Shows
        Descent.engine.context [] Descent.waiting ∧
      (∃ v, [Descent.number 1][0]? = some v ∧ Descent.waiting.frame.value? 0 = some v) ∧
      ∃ id k x, Descent.engine.context.Completes []
          (Descent.engine.context.run 11 ⟨.running Descent.entered [], Descent.engine.resources⟩)
          id k x Descent.answered ∧
        Descent.main.Defines 3 id k x ∧ x.op.yieldsValue = true := by
  have hrun : Descent.engine.context.run 0 (Descent.engine.context.start Descent.engine.resources
      (.function 0) [Descent.number 1])
        = ⟨.running Descent.entered [], Descent.engine.resources⟩ := rfl
  have hnext : Descent.engine.context.run 12 ⟨.running Descent.entered [], Descent.engine.resources⟩
      = ⟨.running Descent.answered [], Descent.engine.resources⟩ := rfl
  have hentry : Activation.enter Descent.main [Descent.number 1] = .ok Descent.entered := rfl
  obtain ⟨a, hshows, -, hparams, hchange⟩ :=
    slots_change_only_by_definition (e := Descent.engine) rfl hrun hentry 11 fun k hk =>
      Context.suspends_nil_of_run (n := 12) (by rw [hnext]; rfl) (by omega)
  have hat : Descent.waiting.At 2 _ 1 ⟨some 3, .call (.function 0) [.value 2]⟩ :=
    ⟨rfl, rfl, rfl, rfl⟩
  have hcalls : Descent.engine.context.Calls .empty Descent.waiting (.function 0)
      [Descent.number 0] ⟨Descent.main, Descent.waiting.frame, 2, 1, some 3⟩ := .intro hat rfl
  have hwaits : (Descent.engine.context.run 11
      ⟨.running Descent.entered [], Descent.engine.resources⟩).Shows Descent.engine.context []
        Descent.waiting := hcalls.shows ⟨_, [], _, rfl⟩
  obtain rfl := hshows.unique hwaits
  refine ⟨hwaits, hparams 0 (by decide), hchange Descent.answered (hnext ▸ .top _) 3 ?_⟩
  intro h
  cases h

/-! ## Reading what has been defined -/

theorem Context.eval_value_eq_error_iff {c : Context} {f : Frame} {v : ValueId} :
    c.eval f (.value v) = .error (.unboundValue v) ↔ ¬ f.Bound v := by
  simp only [eval, Frame.lookup, Frame.Bound]
  cases f.value? v <;> simp

/-- **A definition binds its value exactly if it has a result.** Take a verified program and any run
of it, and let an instruction whose destination is `v` have been completed in some call. As long
as that call is executed or waits, `v` is bound in its frame if the instruction is an operator, a
call or a phi. If it is a store or a terminator, `v` is not bound, and reading it fails. -/
theorem Engine.completed_definition_binds_iff {e : Engine} (hp : e.program.verify = .ok ())
    {callee : Callee} {args : List Value} {i : Nat} {ws : List Caller} {id : BlockId} {k : Nat}
    {x : Instr} {v : ValueId} {a : Activation}
    (hc : e.context.Completes ws (e.context.run i (e.context.start e.resources callee args))
      id k x a) (hv : x.dest = some v) (n : Nat)
    (hsus : ∀ j ≤ n,
      (e.context.run (i + 1 + j) (e.context.start e.resources callee args)).Suspends ws) :
    ∃ a', (e.context.run (i + 1 + n) (e.context.start e.resources callee args)).Shows
        e.context ws a' ∧
      (a'.frame.Bound v ↔ x.op.yieldsValue = true) ∧
      (e.context.eval a'.frame (.value v) = .error (.unboundValue v) ↔
        x.op.yieldsValue = false) := by
  have hwf : e.context.program.WellFormed := Program.wellFormed_of_verify hp
  obtain ⟨a₀, hshows₀, hfaces, hadv₀, hshows⟩ := hc.exists_advances
  obtain ⟨f, args', hmem, hbody, hlife₀⟩ := Context.lives_of_shows hshows₀
  have hf := hwf.bodies f hmem hbody
  have hdef : f.Defines v id k x :=
    hf.defines ((hlife₀.placed hf).function_eq ▸ hfaces.instr?) hv
  rw [← Context.run_succ] at hshows
  obtain ⟨a', hadv, hshows'⟩ := Context.advances_of_suspends hshows n fun j hj => by
    rw [← Context.run_add]
    exact hsus j hj
  rw [← Context.run_add] at hshows'
  have hbound : a'.frame.Bound v ↔ x.op.yieldsValue = true := by
    cases hyields : x.op.yieldsValue with
    | true =>
        -- bound by the instruction itself, and kept since
        have hfirst : a.frame.Bound v := hadv₀.bound_of_faces hfaces ⟨hv, hyields⟩
        simp [Context.bound_of_reflTransGen hadv hfirst]
    | false =>
        have hlife := (hlife₀.advances hadv₀).reflTransGen hadv
        have hnone := hlife.value?_eq_none hf hdef hyields
        simp [Frame.Bound, hnone]
  refine ⟨a', hshows', hbound, ?_⟩
  rw [Context.eval_value_eq_error_iff, hbound, Bool.not_eq_true]

namespace NamedStore

/-- A store with a destination. -/
def store : Instr :=
  ⟨some 0, .store (.global 0) (.int .int 1)⟩

/-- Counts the arguments of a call that is given the result of the store. -/
def main : Function :=
  ⟨"main", [],
    [⟨0, [store, ⟨some 1, .call (.builtin "argc") [.value 0]⟩, ⟨none, .ret [.value 1]⟩], [], []⟩],
    0, 2⟩

def program : Program :=
  ⟨[⟨"g", .int .int⟩], [main]⟩

def engine : Engine :=
  ((Engine.new program .unlimited).register "argc" .argumentCount).setUpGlobals.2

/-- The call of `main` after the given number of steps. -/
def after (n : Nat) : State :=
  engine.context.run n (engine.context.start engine.resources (.function 0) [])

/-- The call of `main` with the store behind it. -/
def stored : Activation :=
  ⟨main, ⟨#[none, none], some 0, none, .unit⟩, .instr 1⟩

theorem completes_store : engine.context.Completes [] (after 1) 0 0 store stored :=
  ⟨_, _, .top _, .instr ⟨rfl, rfl, rfl, rfl⟩, rfl⟩

end NamedStore

/-- After the store its value cannot be read. -/
theorem Engine.completed_definition_binds_iff_namedStore :
    ∃ a, (NamedStore.after 2).Shows NamedStore.engine.context [] a ∧ ¬ a.frame.Bound 0 ∧
      NamedStore.engine.context.eval a.frame (.value 0) = .error (.unboundValue 0) := by
  have hgoing : (NamedStore.after 2).result? = none := rfl
  obtain ⟨a, hshows, hbound, hread⟩ :=
    completed_definition_binds_iff (e := NamedStore.engine) rfl NamedStore.completes_store rfl 0
      fun j hj => Context.suspends_nil_of_run hgoing (by omega)
  refine ⟨a, hshows, ?_, hread.mpr rfl⟩
  rw [hbound]
  decide

/-- A verified program in which an instruction with a destination is completed and does not bind
it: the next instruction uses the value, and fails. -/
theorem Engine.namedStore_leaves_value_unbound :
    NamedStore.engine.program.verify = .ok () ∧ NamedStore.store.dest = some 0 ∧
      NamedStore.engine.context.Completes [] (NamedStore.after 1) 0 0 NamedStore.store
        NamedStore.stored ∧
      ¬ NamedStore.stored.frame.Bound 0 ∧
      (NamedStore.engine.call 3 (.function 0) []).1
        = some (.error ⟨.unboundValue 0, some ⟨"main", 0, 1⟩⟩) := by
  refine ⟨rfl, rfl, NamedStore.completes_store, ?_, rfl⟩
  rintro ⟨u, hu⟩
  cases hu

end SsaMachine
