import SsaMachine.Proofs.Dominance
import SsaMachine.Proofs.Isolation
import SsaMachine.Proofs.Span
import Mathlib.Data.Set.Finite.Basic
import Mathlib.Order.WellFoundedSet

set_option autoImplicit false

/-! # Runs without cycles end

The machine has two ways to run on: it goes round a cycle of blocks, or calls nest ever deeper. In
a verified program that has neither kind of cycle, every call ends with a value or a failure, and
each call executes each block at most once (`Engine.acyclic_calls_end`).

## The two descents

* A call moves on within its block, leaves the block along a recorded edge, or returns
  (`Activation.Progress`). Among the blocks that can be reached from the entry the edges descend,
  and within a block the position grows, so a call cannot advance forever
  (`Context.Life.acc_advances`).
* What a call calls stands below its own function in the call graph. So all calls return
  (`Context.returns_of_life`), by induction over the call graph and, for one function, over what
  the call can still do. `Context.Returns` quantifies over the calls that wait below, because an
  answer is handed to one of them.

Both inductions are over a finite relation without cycles, from a given start (`acc_of_acyclic`).
-/

namespace SsaMachine

/-! ## Finite relations without cycles -/

/-- From a place that leads into no cycle one cannot go on forever, if there are only finitely
many places to go to. -/
theorem acc_of_acyclic {r : Nat → Nat → Prop} {a n : Nat} (hlt : ∀ x y, r x y → y < n)
    (h : ∀ x, Relation.ReflTransGen r a x → ¬ Relation.TransGen r x x) : Acc (flip r) a := by
  have hfin : { x | Relation.ReflTransGen r a x }.Finite := by
    refine ((Set.finite_lt_nat n).insert a).subset fun x hx => ?_
    rcases Relation.ReflTransGen.cases_tail hx with heq | ⟨y, -, hy⟩
    · exact .inl heq
    · exact .inr (hlt y x hy)
  have horder : IsStrictOrder Nat fun y x =>
      Relation.ReflTransGen r a x ∧ Relation.TransGen r x y :=
    { irrefl := fun x hx => h x hx.1 hx.2
      trans := fun _ _ _ hyx hzy => ⟨hzy.1, hzy.2.trans hyx.2⟩ }
  refine (@Set.Finite.wellFoundedOn _ _ horder _ hfin).induction .refl ?_
  intro x hx ih
  exact .intro x fun y hy => ih y (hx.tail hy) ⟨hx, .single hy⟩

/-! ## The conditions -/

/-- Control can pass from the block `a` to the block `b`. -/
def Function.Edge (f : Function) (a b : BlockId) : Prop :=
  f.leadsTo a b = true

/-- No block that can be reached from the entry lies on a cycle. -/
def Function.Acyclic (f : Function) : Prop :=
  ∀ id, Relation.ReflTransGen f.Edge f.entry id → ¬ Relation.TransGen f.Edge id id

/-- No function calls itself, be it through other functions. -/
def Program.CallsAcyclic (p : Program) : Prop :=
  ∀ id, ¬ Relation.TransGen p.CallsTo id id

/-- In a well-formed function, edges lead to blocks of the function. -/
theorem Function.GraphWellFormed.edge_lt {f : Function} (hf : f.GraphWellFormed) {a b : BlockId}
    (h : f.Edge a b) : b < f.blocks.length := by
  obtain ⟨block, ha, hb⟩ := Function.leadsTo_iff.mp h
  have hmem := f.mem_blocks_of_block? ha
  rw [hf.succs block hmem] at hb
  obtain ⟨block', hb'⟩ := hf.targets block hmem b hb
  exact (List.getElem?_eq_some_iff.mp hb').1

theorem Function.Has.isExternal_eq {f : Function} {i : Instr} (h : f.Has i) :
    f.isExternal = false := by
  obtain ⟨b, hb, -⟩ := h
  simpa [isExternal] using List.ne_nil_of_mem hb

/-- In a well-formed program, calls lead to functions of the program. -/
theorem Program.WellFormed.callsTo_lt {p : Program} (hp : p.WellFormed) {id id' : FunctionId}
    (h : p.CallsTo id id') : id' < p.functions.length := by
  obtain ⟨f, hf, i, xs, hi, hop⟩ := h
  have hbody := hp.bodies f (List.mem_of_getElem? hf) hi.isExternal_eq
  obtain ⟨b, hb, hib⟩ := hi
  obtain ⟨g, hg, -⟩ := (hbody.instrs b hb i hib).calls id' xs hop
  exact (List.getElem?_eq_some_iff.mp hg).1

/-! ## How a call makes progress -/

/-- The position of a call in its block, the head being before the first instruction. -/
def Point.rank : Point → Nat
  | head => 0
  | instr k => k + 1

theorem Activation.Placed.rank_le {f : Function} {a : Activation} {id : BlockId} {b : Block}
    (h : a.Placed f) (hid : a.frame.block = some id) (hb : f.block? id = some b) :
    a.point.rank ≤ b.instrs.length := by
  obtain ⟨b', hb', hlt⟩ := h.block id hid
  rw [hb] at hb'
  cases hb'
  cases hp : a.point with
  | head => exact Nat.zero_le _
  | instr k => exact hlt k hp

/-- What becomes of a call that advances: it moves on within its block, it leaves the block along
an edge, or it returns. -/
inductive Activation.Progress (f : Function) (a a' : Activation) : Prop
  | within {id : BlockId} (h : a.frame.block = some id) (h' : a'.frame.block = some id)
      (hlt : a.point.rank < a'.point.rank)
  | leaves {id id' : BlockId} (h : a.frame.block = some id) (h' : a'.frame.block = some id')
      (hedge : f.Edge id id')
  | returns {id : BlockId} (h : a.frame.block = some id) (h' : a'.frame.block = none)

/-- Control proceeds to the next instruction. -/
theorem Activation.At.progress {a : Activation} {id : BlockId} {b : Block} {k : Nat} {i : Instr}
    (hat : a.At id b k i) (f : Function) {g : Frame} (hg : a.frame.Grows g) :
    a.Progress f ⟨a.function, g, .instr (k + 1)⟩ := by
  refine .within hat.current (hg.block_eq.trans hat.current) ?_
  rw [hat.point]
  exact Nat.lt_succ_self _

theorem Context.Advances.progress {p : Program} {c : Context} {f : Function}
    {a a' : Activation} (hf : p.BodyWellFormed f) (ha : a.Placed f) (h : c.Advances a a') :
    a.Progress f a' := by
  cases h with
  | move h =>
      cases h with
      | phis hid hb hp hphis =>
          obtain ⟨hg, -, -⟩ := resolvePhis_eq_ok hphis
          refine .within hid (hg.block_eq.trans hid) ?_
          rw [hp]
          exact Nat.succ_pos _
      | proceed hat hex =>
          rcases execute_eq_proceed hex with ⟨-, -, rfl, -⟩ | ⟨-, -, v, hdef⟩
          · exact hat.progress f (.refl _)
          · exact hat.progress f (Frame.define_eq_ok hdef).1
      | @goto id b k i t hat hex =>
          have hb := ha.block?_eq hat.block
          have hmem := f.mem_blocks_of_block? hb
          refine .leaves hat.current rfl (Function.leadsTo_iff.mpr ⟨b, hb, ?_⟩)
          rw [hf.succs b hmem]
          exact (hf.endsOnce b hmem).mem_targets hat.instr (execute_eq_goto hex)
      | exit hat hex => exact .returns hat.current rfl
  | answer hc hv =>
      cases hc with
      | intro hat hex =>
          obtain ⟨g, hdef, rfl⟩ := Caller.resume_eq_ok hv
          exact hat.progress f (Frame.define_eq_ok hdef).1

section Descent

variable {p : Program} {c : Context} {f : Function} {args : List Value} {a a' : Activation}
  (hf : p.BodyWellFormed f)
include hf

/-- A call is only ever in blocks that can be reached from the entry. -/
theorem Context.Life.reachable (h : c.Life f args a) :
    ∀ id, a.frame.block = some id → Relation.ReflTransGen f.Edge f.entry id := by
  refine Life.induction_advances (P := fun a => ∀ id, a.frame.block = some id →
    Relation.ReflTransGen f.Edge f.entry id) ?_ ?_ h
  · intro a he id hid
    obtain ⟨-, -, -, hblock, -, -⟩ := Activation.enter_eq_ok he
    rw [hblock] at hid
    cases hid
    exact .refl
  · intro a a' ha ih hadv id hid
    cases hadv.progress hf (ha.placed hf) with
    | within h h' =>
        rw [h'] at hid
        exact ih id (h.trans hid)
    | leaves h h' hedge =>
        rw [h'] at hid
        cases hid
        exact (ih _ h).tail hedge
    | returns h h' =>
        rw [h'] at hid
        cases hid

/-- A call that has returned does not go on. -/
theorem Context.acc_of_returned (ha : a.Placed f) (h : a.frame.block = none) :
    Acc (flip c.Advances) a := by
  refine .intro a fun a' hadv => ?_
  cases Advances.progress hf ha hadv with
  | within hid | leaves hid | returns hid => cases h.symm.trans hid

/-- **A call of a function without cycles cannot advance forever.** The induction is over the
edges and, within a block, over the positions that are left. -/
theorem Context.Life.acc_advances (hacyclic : f.Acyclic) (h : c.Life f args a) :
    Acc (flip c.Advances) a := by
  cases hid : a.frame.block with
  | none => exact acc_of_returned hf (h.placed hf) hid
  | some id =>
      have hacc : Acc (flip f.Edge) id := by
        refine acc_of_acyclic (fun _ _ => hf.edge_lt) fun x hx => ?_
        exact hacyclic x ((h.reachable hf id hid).trans hx)
      induction hacc generalizing a with
      | intro id _ ihblock =>
          obtain ⟨b, hb, -⟩ := (h.placed hf).block id hid
          induction hn : b.instrs.length - a.point.rank using Nat.strong_induction_on
            generalizing a with
          | _ n ihpoint =>
              refine .intro a fun a' hadv => ?_
              have ha' := h.advances hadv
              cases Advances.progress hf (h.placed hf) hadv with
              | within hid₀ hid' hlt =>
                  rw [hid] at hid₀
                  cases hid₀
                  -- the new position is one of the block, so less of the block is left
                  have hle := (ha'.placed hf).rank_le hid' hb
                  exact ihpoint _ (by omega) ha' hid' rfl
              | leaves hid₀ hid' hedge =>
                  rw [hid] at hid₀
                  cases hid₀
                  exact ihblock _ hedge ha' hid'
              | returns _ hid' => exact acc_of_returned hf (ha'.placed hf) hid'

/-- From a position after the head of a block, a call comes to the head of another block only along
edges. -/
theorem Context.Life.edges_of_advances {id : BlockId} (h : c.Life f args a)
    (hid : a.frame.block = some id) (hrank : 0 < a.point.rank)
    (hadv : Relation.ReflTransGen c.Advances a a') :
    c.Life f args a' ∧ ∀ id', a'.frame.block = some id' →
      Relation.ReflTransGen f.Edge id id' ∧
        (a'.point = .head → Relation.TransGen f.Edge id id') := by
  induction hadv with
  | refl =>
      refine ⟨h, fun id' hid' => ?_⟩
      rw [hid] at hid'
      cases hid'
      refine ⟨.refl, fun hhead => ?_⟩
      rw [hhead] at hrank
      cases hrank
  | tail _ hlast ih =>
      obtain ⟨hlife, hedges⟩ := ih
      refine ⟨hlife.advances hlast, fun id' hid' => ?_⟩
      cases hlast.progress hf (hlife.placed hf) with
      | within h₁ h₂ hlt =>
          rw [h₂] at hid'
          cases hid'
          refine ⟨(hedges _ h₁).1, fun hhead => ?_⟩
          rw [hhead] at hlt
          cases hlt
      | leaves h₁ h₂ hedge =>
          rw [h₂] at hid'
          cases hid'
          exact ⟨(hedges _ h₁).1.tail hedge, fun _ => .tail' (hedges _ h₁).1 hedge⟩
      | returns _ h₂ =>
          rw [h₂] at hid'
          cases hid'

end Descent

/-! ## Every call returns -/

/-- The run comes to an end, or the call that is above `ws` hands over a result. -/
def Context.Settles (c : Context) (ws : List Caller) (s : State) : Prop :=
  ∃ n, (∃ result, (c.run n s).result? = some result) ∨
    ∃ r v, c.run n s = .deliver r v ws

/-- The call returns or ends the run, whatever waits below it and with whatever resources. -/
def Context.Returns (c : Context) (a : Activation) : Prop :=
  ∀ ws r, c.Settles ws ⟨.running a ws, r⟩

/-- What settles after some steps settles. -/
theorem Context.Settles.of_run {c : Context} {ws : List Caller} {s : State} (n : Nat)
    (h : c.Settles ws (c.run n s)) : c.Settles ws s := by
  obtain ⟨m, h⟩ := h
  exact ⟨n + m, by rwa [run_add]⟩

/-- A result that is handed over ends the run, unless the call that waits for it goes on. -/
theorem Context.settles_deliver {c : Context} {w : Caller} {ws : List Caller} (r : Resources)
    (v : Value) (h : ∀ a, w.resume v = .ok a → c.Returns a) :
    c.Settles ws (.deliver r v (w :: ws)) := by
  cases hv : w.resume v with
  | error failure =>
      rw [State.deliver_of_resume_error hv]
      exact ⟨0, .inl ⟨.error failure, rfl⟩⟩
  | ok a =>
      rw [State.deliver_of_resume hv]
      exact h a hv ws r

/-- A call returns if it does so after each way to go on, and if the calls that it makes return. -/
theorem Context.returns_of_next {c : Context} {a : Activation}
    (hadvance : ∀ a', c.Advances a a' → c.Returns a')
    (hcalls : ∀ m callee vs w f a', c.Calls m a callee vs w →
      c.program.target callee = .ok (.body f) → Activation.enter f vs = .ok a' → c.Returns a') :
    c.Returns a := by
  intro ws r
  refine .of_run 1 ?_
  have hrun : c.run 1 ⟨.running a ws, r⟩ = c.step ⟨.running a ws, r⟩ := rfl
  have hstep := c.step_of_running a ws r
  rw [hrun]
  generalize c.step ⟨.running a ws, r⟩ = s at hstep ⊢
  cases hstep with
  | move h => exact hadvance _ (.move h) ws _
  | call hc ht he =>
      obtain ⟨n, ⟨result, hend⟩ | ⟨r', v, hdeliver⟩⟩ := hcalls _ _ _ _ _ _ hc ht he (_ :: ws) r
      · exact ⟨n, .inl ⟨result, hend⟩⟩
      · refine .of_run n ?_
        rw [hdeliver]
        exact settles_deliver r' v fun a' hv => hadvance a' (.answer hc hv)
  | native hc ht hn => exact settles_deliver _ _ fun a' hv => hadvance a' (.answer hc hv)
  | ret hb => exact ⟨0, .inr ⟨_, _, rfl⟩⟩
  | fail h => exact ⟨0, .inl ⟨_, rfl⟩⟩

section Termination

variable {c : Context} (hp : c.program.WellFormed)
  (hacyclic : ∀ f ∈ c.program.functions, f.Acyclic) (hcalls : c.program.CallsAcyclic)
include hp hacyclic hcalls

/-- **Every call of a program without cycles returns.** -/
theorem Context.returns_of_life {id : FunctionId} {f : Function} {args : List Value}
    {a : Activation} (hf : c.program.function? id = some f) (hbody : f.isExternal = false)
    (h : c.Life f args a) : c.Returns a := by
  have hacc : Acc (flip c.program.CallsTo) id :=
    acc_of_acyclic (fun _ _ => hp.callsTo_lt) fun x _ => hcalls x
  induction hacc generalizing f args a with
  | intro id _ ihcall =>
      have hmem := List.mem_of_getElem? hf
      have hwf := hp.bodies f hmem hbody
      have hadv := h.acc_advances hwf (hacyclic f hmem)
      induction hadv with
      | intro a _ ihadv =>
          refine returns_of_next (fun a' ha' => ihadv a' ha' (h.advances ha')) ?_
          intro m callee vs w g a' hc ht he
          -- the function that is called stands below this one in the call graph
          obtain ⟨id', rfl, hg⟩ := Program.function?_of_target ht
          have hcall : f.CallsTo id' := (h.placed hwf).function_eq ▸ hc.callsTo
          exact ihcall id' ⟨f, hf, hcall⟩ hg (Program.target_eq_body ht).2 (.enter he)

theorem Context.exists_result (r : Resources) (callee : Callee) (args : List Value) :
    ∃ n result, (c.run n (c.start r callee args)).result? = some result := by
  cases hs : c.start r callee args with
  | mk status r₀ =>
      cases status with
      | halted result => exact ⟨0, result, rfl⟩
      | running a ws =>
          obtain ⟨f, ht, he, rfl⟩ := start_eq_running hs
          obtain ⟨id, rfl, hf⟩ := Program.function?_of_target ht
          have hreturns := returns_of_life hp hacyclic hcalls hf (Program.target_eq_body ht).2
            (.enter he)
          obtain ⟨n, ⟨result, hend⟩ | ⟨r', v, hdeliver⟩⟩ := hreturns [] r₀
          · exact ⟨n, result, hend⟩
          · exact ⟨n, .ok v, by rw [hdeliver]; rfl⟩

end Termination

/-! ## No call executes a block twice -/

/-- The call directly above the calls `ws` is about to execute the block `id`, from its head. -/
def State.Starts (s : State) (ws : List Caller) (id : BlockId) : Prop :=
  ∃ a r, s = ⟨.running a ws, r⟩ ∧ a.point = .head ∧ a.frame.block = some id

/-- In the run from `s`, no call starts to execute the same block twice. Two moments belong to the
same call if the calls `ws` below it have been waiting all the time in between. -/
def Context.VisitsOnce (c : Context) (s : State) : Prop :=
  ∀ i j ws id, i < j → (∀ k, i ≤ k → k ≤ j → (c.run k s).Suspends ws) →
    (c.run i s).Starts ws id → ¬ (c.run j s).Starts ws id

/-- From the head of a block the run goes on only behind the head. -/
theorem Context.Step.of_head {c : Context} {a : Activation} {ws : List Caller} {r : Resources}
    {s : State} {id : BlockId} (h : c.Step a ws r s) (hsus : s.Suspends ws)
    (hhead : a.point = .head) (hid : a.frame.block = some id) :
    ∃ a', c.Advances a a' ∧ 0 < a'.point.rank ∧ a'.frame.block = some id ∧ s.Shows c ws a' := by
  cases h with
  | move h =>
      cases h with
      | phis hid' hb hp hphis =>
          obtain ⟨hg, -, -⟩ := resolvePhis_eq_ok hphis
          have hmove : c.Move r a r _ := .phis hid' hb hp hphis
          exact ⟨_, .move hmove, Nat.succ_pos _, hg.block_eq.trans hid, .top r⟩
      | proceed hat hex => cases hhead.symm.trans hat.point
      | goto hat hex => cases hhead.symm.trans hat.point
      | exit hat hex => cases hhead.symm.trans hat.point
  | call hc ht he =>
      cases hc with
      | intro hat hex => cases hhead.symm.trans hat.point
  | native hc ht hn =>
      cases hc with
      | intro hat hex => cases hhead.symm.trans hat.point
  | ret hb => cases hid.symm.trans hb
  | fail hraise =>
      obtain ⟨_, _, _, h⟩ := hsus
      cases h

/-- **No call of a program without cycles executes a block twice.** If it did, then the edges that
it followed in between would be a cycle. -/
theorem Context.visitsOnce {c : Context} (hp : c.program.WellFormed)
    (hacyclic : ∀ f ∈ c.program.functions, f.Acyclic) (r : Resources) (callee : Callee)
    (args : List Value) : c.VisitsOnce (c.start r callee args) := by
  rintro i j ws id hij hsus ⟨a, r₁, hi, hhead, hid⟩ ⟨b, r₂, hj, hbhead, hbid⟩
  obtain ⟨f, args', hmem, hbody, hlife⟩ := lives_of_run hi
  have hwf := hp.bodies f hmem hbody
  -- the first step leads behind the head of the block
  have hnext : c.run (i + 1) (c.start r callee args) = c.step ⟨.running a ws, r₁⟩ := by
    rw [run_succ, hi]
  obtain ⟨a', hadv, hrank, hid', hshows⟩ :=
    (c.step_of_running a ws r₁).of_head (hnext ▸ hsus (i + 1) (Nat.le_succ i) hij) hhead hid
  -- and the others lead from there to the head of the same block
  obtain ⟨n, rfl⟩ := Nat.exists_eq_add_of_le hij
  obtain ⟨b', hadvs, hshows'⟩ := advances_of_suspends hshows n fun k hk => by
    rw [← hnext, ← run_add]
    exact hsus (i + 1 + k) (by omega) (by omega)
  rw [← hnext, ← run_add, hj] at hshows'
  cases hshows'.eq_top
  have hcycle := ((hlife.advances hadv).edges_of_advances hwf hid' hrank hadvs).2 id hbid
  exact hacyclic f hmem id (hlife.reachable hwf id hid) (hcycle.2 hbhead)

/-- **Programs without cycles terminate.** Take a verified program in which no function has a
cycle among the blocks that can be reached from its entry, and no function calls itself, be it
through other functions. Whatever is called, with any arguments, on an engine in any state, the
call ends with a value or a failure once it is given enough steps, and in its run no call, at
whatever depth, executes a block twice. Natives answer at once. -/
theorem Engine.acyclic_calls_end {e : Engine} (hp : e.program.verify = .ok ())
    (hacyclic : ∀ f ∈ e.program.functions, f.Acyclic) (hcalls : e.program.CallsAcyclic)
    (callee : Callee) (args : List Value) :
    (∃ fuel result, ∀ fuel' ≥ fuel, (e.call fuel' callee args).1 = some result) ∧
      e.context.VisitsOnce (e.context.start e.resources callee args) := by
  have hwf : e.context.program.WellFormed := Program.wellFormed_of_verify hp
  refine ⟨?_, Context.visitsOnce hwf hacyclic e.resources callee args⟩
  obtain ⟨fuel, result, hend⟩ := Context.exists_result hwf hacyclic hcalls e.resources callee args
  refine ⟨fuel, result, fun fuel' hle => ?_⟩
  have hcall : (e.call fuel callee args).1 = some result := hend
  rw [call_of_le hcall hle, hcall]

/-! ## A program without cycles -/

/-- There is no cycle where the numbers grow. -/
theorem not_transGen_self_of_lt {r : Nat → Nat → Prop} {P : Nat → Prop}
    (h : ∀ x y, P x → r x y → P y ∧ x < y) {x : Nat} (hx : P x) : ¬ Relation.TransGen r x x := by
  have hlt : ∀ y, Relation.TransGen r x y → P y ∧ x < y := by
    intro y hy
    induction hy with
    | single hr => exact h x _ hx hr
    | tail _ hr ih =>
        obtain ⟨hP, hgrows⟩ := h _ _ ih.1 hr
        exact ⟨hP, ih.2.trans hgrows⟩
  exact fun hcycle => Nat.lt_irrefl x (hlt x hcycle).2

/-- The function that the operation calls by its number, if it does. -/
def Operation.callee? : Operation → Option FunctionId
  | call (.function id) _ => some id
  | _ => none

namespace Diamond

/-- Two ways to the same block, each with a call, and a loop that nothing leads to. -/
def main : Function :=
  ⟨"main", [⟨"flag", .bool⟩],
    [⟨0, [⟨none, .branch (.value 0) 1 2⟩], [], [1, 2]⟩,
     ⟨1, [⟨some 1, .call (.function 1) [.int .int 5]⟩, ⟨none, .jump 3⟩], [0], [3]⟩,
     ⟨2, [⟨some 2, .call (.function 1) [.int .int 0]⟩, ⟨none, .jump 3⟩], [0], [3]⟩,
     ⟨3, [⟨some 3, .phi [⟨1, .value 1⟩, ⟨2, .value 2⟩]⟩, ⟨none, .ret [.value 3]⟩], [1, 2], []⟩,
     ⟨4, [⟨none, .jump 4⟩], [4], [4]⟩], 0, 4⟩

def inverse : Function :=
  ⟨"inverse", [⟨"n", .int .int⟩],
    [⟨0,
      [⟨some 1, .binary .quo (.int .int 100) (.value 0)⟩,
       ⟨none, .ret [.value 1]⟩], [], []⟩], 0, 2⟩

def program : Program where
  globals := []
  functions := [main, inverse]

theorem acyclic_main : main.Acyclic := by
  have hedge : ∀ a b, a < 4 → main.Edge a b → b < 4 ∧ a < b := by
    intro a b ha h
    obtain ⟨block, hblock, hb⟩ := Function.leadsTo_iff.mp h
    have hall : ∀ a < 4, ∀ b ∈ ((main.block? a).map Block.succs).getD [], b < 4 ∧ a < b := by
      decide
    exact hall a ha b (by rw [hblock]; exact hb)
  intro id hid
  have hlt : id < 4 := by
    induction hid with
    | refl => decide
    | tail _ he ih => exact (hedge _ _ ih he).1
  exact not_transGen_self_of_lt hedge hlt

theorem acyclic_inverse : inverse.Acyclic := by
  have hedge : ∀ a b, ¬ inverse.Edge a b := by
    intro a b h
    obtain ⟨block, hblock, hb⟩ := Function.leadsTo_iff.mp h
    cases List.mem_singleton.mp (inverse.mem_blocks_of_block? hblock)
    cases hb
  intro id _ hcycle
  obtain ⟨b, hb, -⟩ := Relation.TransGen.head'_iff.mp hcycle
  exact hedge id b hb

/-- The calls lead from the first function to the second. -/
theorem callsAcyclic_program : program.CallsAcyclic := by
  intro id
  refine not_transGen_self_of_lt (P := fun _ => True) ?_ trivial
  rintro k k' - ⟨f, hf, i, xs, ⟨b, hb, hi⟩, hop⟩
  have hall : ∀ g ∈ program.functions.zipIdx, ∀ b ∈ g.1.blocks, ∀ i ∈ b.instrs,
      ∀ id ∈ i.op.callee?, g.2 < id := by
    decide
  refine ⟨trivial, hall (f, k) (List.mk_mem_zipIdx_iff_getElem?.mpr hf) b hb i hi k' ?_⟩
  rw [hop]
  rfl

end Diamond

/-- The call that takes the second way fails in the call that it makes. -/
theorem Engine.acyclic_calls_end_diamond :
    ((Engine.new Diamond.program .unlimited).call 20 (.function 0) [.bool false]).1
        = some (.error ⟨.divisionByZero, some ⟨"inverse", 0, 0⟩⟩) ∧
      (∃ fuel result, ∀ fuel' ≥ fuel,
        ((Engine.new Diamond.program .unlimited).call fuel' (.function 0) [.bool false]).1
          = some result) ∧
      (Engine.new Diamond.program .unlimited).context.VisitsOnce
        ((Engine.new Diamond.program .unlimited).context.start
          (Engine.new Diamond.program .unlimited).resources (.function 0) [.bool false]) := by
  refine ⟨rfl, acyclic_calls_end rfl ?_ Diamond.callsAcyclic_program _ _⟩
  intro f hf
  rcases List.mem_cons.mp hf with rfl | hf
  · exact Diamond.acyclic_main
  · rw [List.mem_singleton.mp hf]
    exact Diamond.acyclic_inverse

end SsaMachine
