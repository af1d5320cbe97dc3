import SsaMachine.Proofs.Blame
import SsaMachine.Proofs.Span
import Mathlib.Data.List.Chain

set_option autoImplicit false

/-! # Calls follow the recorded control flow

The blocks of a function record where they lead and where they are reached from. The machine never
reads these records: it goes where the terminators send it. This file shows that a call of a
verified program still goes only along recorded edges, from the entry on, until it returns or the
run fails (`Engine.calls_follow_control_flow`).

* **Starts.** Whenever a call stands at the head of a block, it starts to execute that block, and
  its frame tells the block and the previous one (`Activation.start?`). The starts of one call are
  collected from a run by looking at the states where only the calls below it wait
  (`Context.blockStarts`); what the calls above it do in the meantime is passed over.
* **Traversals.** The starts of a call begin at the entry, and each is linked to the next by an edge
  that both blocks record (`Function.Traversal`). The invariant adds that the call is in the block
  that it has started last, or that this block ends with a return (`Activation.Traverses`).
* **Ends.** A call that is no longer executed has returned, or the run has failed
  (`State.Shows.end_cases`).
-/

namespace SsaMachine

/-! ## Starts of blocks -/

/-- The start of a block: the block that is to be executed, and the one before it. -/
structure BlockStart where
  previous : Option BlockId
  block : BlockId
  deriving DecidableEq

/-- The block that the call starts to execute, if it stands at the head of one. -/
def Activation.start? (a : Activation) : Option BlockStart :=
  match a.point with
  | .head => a.frame.block.map fun id => ⟨a.frame.previous, id⟩
  | .instr _ => none

/-- The block that the call above `depth` others starts to execute. -/
def State.start? (s : State) (depth : Nat) : Option BlockStart :=
  match s.status with
  | .running a ws => if ws.length = depth then a.start? else none
  | .halted _ => none

/-- The blocks that the call above `depth` others starts to execute, in the first `n` steps from
`s`. -/
def Context.blockStarts (c : Context) (depth : Nat) (s : State) (n : Nat) : List BlockStart :=
  (List.range (n + 1)).filterMap fun k => (c.run k s).start? depth

/-- Control passes from one block to the next as both of them record it. -/
structure Function.Passes (f : Function) (x y : BlockStart) : Prop where
  previous : y.previous = some x.block
  succ : ∃ b, f.block? x.block = some b ∧ y.block ∈ b.succs
  pred : ∃ b, f.block? y.block = some b ∧ x.block ∈ b.preds

/-- The blocks are executed along recorded edges, beginning at the entry. -/
structure Function.Traversal (f : Function) (starts : List BlockStart) : Prop where
  entry : starts.head? = some ⟨none, f.entry⟩
  edges : starts.IsChain f.Passes

/-- The last instruction of the block is a return. -/
def Block.Returns (b : Block) : Prop :=
  ∃ i xs, b.instrs.getLast? = some i ∧ i.op = .ret xs

/-- The blocks that the call has executed are a traversal. The last of them is the one that it is
in, with the previous one that its frame names, or the one that it has returned from. -/
structure Activation.Traverses (f : Function) (starts : List BlockStart) (a : Activation) : Prop
    extends f.Traversal starts where
  current : ∀ id, a.frame.block = some id → starts.getLast? = some ⟨a.frame.previous, id⟩
  returned : a.frame.block = none →
    ∃ x b, starts.getLast? = some x ∧ f.block? x.block = some b ∧ b.Returns

theorem Context.blockStarts_zero (c : Context) (depth : Nat) (s : State) :
    c.blockStarts depth s 0 = (s.start? depth).toList := by
  cases h : s.start? depth <;> simp [blockStarts, run, h]

theorem Context.blockStarts_succ (c : Context) (depth : Nat) (s : State) (n : Nat) :
    c.blockStarts depth s (n + 1) =
      c.blockStarts depth s n ++ ((c.run (n + 1) s).start? depth).toList := by
  simp only [blockStarts, List.range_succ (n := n + 1), List.filterMap_append]
  cases h : (c.run (n + 1) s).start? depth <;> simp [h]

/-- What happens above a waiting call starts no block of it. -/
theorem State.Suspends.start?_eq_none {s : State} {w : Caller} {ws : List Caller}
    (h : s.Suspends (w :: ws)) : s.start? ws.length = none := by
  obtain ⟨a, us, r, rfl⟩ := h
  have hlen : (us ++ w :: ws).length ≠ ws.length := by
    rw [List.length_append, List.length_cons]
    omega
  simp only [start?, if_neg hlen]

theorem State.start?_running (a : Activation) (ws : List Caller) (r : Resources) :
    State.start? ⟨.running a ws, r⟩ ws.length = a.start? := by
  simp only [start?, if_pos]

/-! ## One call -/

theorem Function.GraphWellFormed.passes {f : Function} (hf : f.GraphWellFormed) {id t : BlockId}
    {b : Block} (hb : f.block? id = some b) (ht : t ∈ b.targets) (p : Option BlockId) :
    f.Passes ⟨p, id⟩ ⟨some id, t⟩ := by
  have hmem : b ∈ f.blocks := f.mem_blocks_of_block? hb
  have hsucc : t ∈ b.succs := by rwa [hf.succs b hmem]
  obtain ⟨b', hb'⟩ := hf.targets b hmem t ht
  refine ⟨rfl, ⟨b, hb, hsucc⟩, b', hb', ?_⟩
  -- a predecessor is recorded wherever a successor is
  rw [hf.preds b' (f.mem_blocks_of_block? hb'), hf.numbered t b' hb']
  exact ⟨b, hb, hsucc⟩

theorem Function.Traversal.concat {f : Function} {starts : List BlockStart} {x y : BlockStart}
    (h : f.Traversal starts) (hlast : starts.getLast? = some x) (hxy : f.Passes x y) :
    f.Traversal (starts ++ [y]) := by
  constructor
  · rw [List.head?_append, h.entry]
    rfl
  · refine List.isChain_append.mpr ⟨h.edges, List.isChain_singleton y, ?_⟩
    intro x' hx' y' hy'
    rw [hlast] at hx'
    cases hx'
    cases hy'
    exact hxy

/-- A call that has been entered starts the entry block, with no block before it. -/
theorem Activation.traverses_enter {f : Function} {args : List Value} {a : Activation}
    (h : enter f args = .ok a) : a.Traverses f a.start?.toList := by
  obtain ⟨-, hpoint, -, hblock, hprev, -⟩ := enter_eq_ok h
  have hstart : a.start? = some ⟨none, f.entry⟩ := by
    simp only [start?, hpoint, hblock, hprev, Option.map_some]
  rw [hstart]
  refine ⟨⟨rfl, List.isChain_singleton _⟩, fun id hid => ?_, fun hnone => ?_⟩
  · obtain rfl : f.entry = id := Option.some.inj (hblock.symm.trans hid)
    rw [hprev]
    rfl
  · cases hblock.symm.trans hnone

/-- Within a block nothing is started. -/
theorem Activation.Traverses.within {f : Function} {starts : List BlockStart} {a : Activation}
    (h : a.Traverses f starts) {g : Frame} (hg : a.frame.Grows g) (k : Nat) :
    Traverses f (starts ++ (start? ⟨a.function, g, .instr k⟩).toList)
      ⟨a.function, g, .instr k⟩ := by
  rw [start?, Option.toList_none, List.append_nil]
  refine ⟨h.toTraversal, fun id hid => ?_, fun hnone => ?_⟩
  · rw [hg.previous_eq]
    exact h.current id (hg.block_eq.symm.trans hid)
  · exact h.returned (hg.block_eq.symm.trans hnone)

/-- The step lemma: when a call advances, what it starts is linked to what it has started last. -/
theorem Activation.Traverses.advance {p : Program} {c : Context} {f : Function}
    {starts : List BlockStart} {a a' : Activation} (hf : p.BodyWellFormed f)
    (h : a.Traverses f starts) (ha : a.Placed f) (hadv : c.Advances a a') :
    a'.Traverses f (starts ++ a'.start?.toList) := by
  cases hadv with
  | move hm =>
      cases hm with
      | phis hid hb hp hphis => exact h.within (Context.resolvePhis_eq_ok hphis).1 _
      | proceed hat hex =>
          rcases Context.execute_eq_proceed hex with ⟨-, -, rfl, -⟩ | ⟨-, -, v, hdef⟩
          · exact h.within (.refl _) _
          · exact h.within (Frame.define_eq_ok hdef).1 _
      | @goto id b k i t hat hex =>
          have hb : f.block? id = some b := ha.block?_eq hat.block
          have ht : t ∈ b.targets := (hf.endsOnce b (f.mem_blocks_of_block? hb)).mem_targets
            hat.instr (Context.execute_eq_goto hex)
          have hstart : start? ⟨a.function, a.frame.transfer t, .head⟩ = some ⟨some id, t⟩ := by
            simp only [start?, Frame.transfer, Option.map_some, hat.current]
          rw [hstart, Option.toList_some]
          refine ⟨h.concat (h.current id hat.current) (hf.passes hb ht _), fun t' ht' => ?_,
            fun hnone => ?_⟩
          · cases ht'
            simp [Frame.transfer, hat.current]
          · cases hnone
      | @exit id b k i v hat hex =>
          have hb : f.block? id = some b := ha.block?_eq hat.block
          obtain ⟨xs, hop⟩ := Context.execute_eq_exit hex
          have hends : b.Returns := ⟨i, xs, (hf.endsOnce b (f.mem_blocks_of_block? hb)).getLast?_eq
            hat.instr (by rw [hop]; rfl), hop⟩
          have hstart : start? ⟨a.function, a.frame.finish v, .head⟩ = none := rfl
          rw [hstart, Option.toList_none, List.append_nil]
          refine ⟨h.toTraversal, fun t ht => ?_, fun _ => ?_⟩
          · cases ht
          · exact ⟨_, b, h.current id hat.current, hb, hends⟩
  | answer hc hv =>
      cases hc with
      | intro hat hex =>
          obtain ⟨g, hdef, rfl⟩ := Caller.resume_eq_ok hv
          exact h.within (Frame.define_eq_ok hdef).1 _

/-! ## Runs -/

/-- The run lemma: what a call has started is a traversal, as long as the calls below it wait. -/
theorem Context.traverses_of_suspends {p : Program} {c : Context} {f : Function}
    {args : List Value} {a : Activation} {ws : List Caller} {r : Resources}
    (hf : p.BodyWellFormed f) (he : Activation.enter f args = .ok a) :
    ∀ n, (∀ k ≤ n, (c.run k ⟨.running a ws, r⟩).Suspends ws) →
      ∃ a', (c.run n ⟨.running a ws, r⟩).Shows c ws a' ∧ c.Life f args a' ∧
        a'.Traverses f (c.blockStarts ws.length ⟨.running a ws, r⟩ n) := by
  intro n
  induction n with
  | zero =>
      intro _
      refine ⟨a, .top r, .enter he, ?_⟩
      rw [blockStarts_zero, State.start?_running]
      exact Activation.traverses_enter he
  | succ n ih =>
      intro hsus
      obtain ⟨a', hshows, hlife, htraverses⟩ := ih fun k hk => hsus k (Nat.le_succ_of_le hk)
      have hlast := hsus (n + 1) (Nat.le_refl _)
      rw [blockStarts_succ]
      rw [run_succ] at hlast ⊢
      rcases hshows.step hlast with ⟨m, callee, vs, w, hc, hw⟩ | ⟨a'', r', hadv, hs⟩
      · rw [hw.start?_eq_none, Option.toList_none, List.append_nil]
        exact ⟨a', hc.shows hw, hlife, htraverses⟩
      · rw [hs, State.start?_running]
        exact ⟨a'', .top r', hlife.advances hadv,
          htraverses.advance hf (hlife.placed hf) hadv⟩

/-- Handing over a result lets a waiting call go on, or ends the run with a failure. -/
theorem State.suspends_or_fails_deliver (r : Resources) (v : Value) (w : Caller)
    (us ws : List Caller) :
    (State.deliver r v (w :: (us ++ ws))).Suspends ws ∨
      ∃ failure, (State.deliver r v (w :: (us ++ ws))).result? = some (.error failure) := by
  cases hv : w.resume v with
  | ok a => exact .inl ⟨a, us, r, deliver_of_resume hv r _⟩
  | error failure => exact .inr ⟨failure, by rw [deliver_of_resume_error hv]; rfl⟩

/-- A call comes to its end by a return or by a failure of the run. -/
theorem State.Shows.end_cases {c : Context} {ws : List Caller} {a : Activation} {s : State}
    (h : s.Shows c ws a) (hend : ¬ (c.step s).Suspends ws) :
    (a.frame.block = none ∧ ∃ r, s = ⟨.running a ws, r⟩ ∧
        c.step s = .deliver r a.frame.result ws) ∨
      ∃ failure, (c.step s).result? = some (.error failure) := by
  cases h with
  | top r =>
      generalize hs : c.step ⟨.running a ws, r⟩ = s at hend
      have hstep : c.Step a ws r s := hs ▸ c.step_of_running a ws r
      cases hstep with
      | move h => exact absurd ⟨_, [], _, rfl⟩ hend
      | @call _ _ w _ _ hc ht he => exact absurd ⟨_, [w], r, rfl⟩ hend
      | native hc ht hn => exact .inr ((suspends_or_fails_deliver _ _ _ [] ws).resolve_left hend)
      | ret hb => exact .inl ⟨hb, r, rfl, rfl⟩
      | fail hraise => exact .inr ⟨_, rfl⟩
  | @waiting m callee vs w hc top us r =>
      -- something is above the call, so an answer only goes to a call above `ws`
      obtain ⟨u, us', hws⟩ : ∃ u us', us ++ w :: ws = u :: (us' ++ ws) := by
        cases us with
        | nil => exact ⟨w, [], rfl⟩
        | cons u us => exact ⟨u, us ++ [w], by simp⟩
      rw [hws] at hend ⊢
      generalize hs : c.step ⟨.running top (u :: (us' ++ ws)), r⟩ = s at hend
      have hstep : c.Step top (u :: (us' ++ ws)) r s := hs ▸ c.step_of_running top _ r
      right
      cases hstep with
      | move h => exact absurd ⟨_, u :: us', _, rfl⟩ hend
      | @call _ _ u' _ _ hc' ht he => exact absurd ⟨_, u' :: u :: us', r, rfl⟩ hend
      | native hc' ht hn =>
          exact (suspends_or_fails_deliver _ _ _ (u :: us') ws).resolve_left hend
      | ret hb => exact (suspends_or_fails_deliver _ _ u us' ws).resolve_left hend
      | fail hraise => exact ⟨_, rfl⟩

/-- A call in a run of a verified program is one of a well-formed function. -/
theorem Context.bodyWellFormed_of_run {c : Context} (hp : c.program.WellFormed) {r r' : Resources}
    {callee : Callee} {args₀ args : List Value} {i : Nat} {f : Function} {a : Activation}
    {ws : List Caller} (hrun : c.run i (c.start r callee args₀) = ⟨.running a ws, r'⟩)
    (henter : Activation.enter f args = .ok a) : c.program.BodyWellFormed f := by
  obtain ⟨g, args', hmem, hbody, hlife⟩ := lives_of_run hrun
  have hg := hp.bodies g hmem hbody
  have hfg : f = g := (Activation.enter_eq_ok henter).1.symm.trans (hlife.placed hg).function_eq
  exact hfg ▸ hg

/-- **Execution follows the recorded control flow.** Take a verified program, any run of it, and any
call in this run: it enters the function `f` above the waiting calls `ws`. At every moment of the
call, whether it is on top or waits for a call of its own, the blocks that it has started begin with
the entry, which has no previous block. Each later one names the one started before it as the
previous block, and both record the edge between them. The call is in the last of these blocks, at
its head or at one of its instructions, unless it has returned, and then that block ends with a
return. The call ends only by handing over its result after such a return, or because the run
fails. -/
theorem Engine.calls_follow_control_flow {e : Engine} (hp : e.program.verify = .ok ())
    {callee : Callee} {args₀ : List Value} {i : Nat} {f : Function} {args : List Value}
    {a : Activation} {ws : List Caller} {r : Resources}
    (hrun : e.context.run i (e.context.start e.resources callee args₀) = ⟨.running a ws, r⟩)
    (henter : Activation.enter f args = .ok a) (n : Nat)
    (hsus : ∀ k ≤ n, (e.context.run k ⟨.running a ws, r⟩).Suspends ws) :
    ∃ a', (e.context.run n ⟨.running a ws, r⟩).Shows e.context ws a' ∧ a'.function = f ∧
      a'.Traverses f (e.context.blockStarts ws.length ⟨.running a ws, r⟩ n) ∧
      (∀ id, a'.frame.block = some id →
        ∃ b, f.block? id = some b ∧ ∀ k, a'.point = .instr k → k < b.instrs.length) ∧
      (¬ (e.context.run (n + 1) ⟨.running a ws, r⟩).Suspends ws →
        (a'.frame.block = none ∧ ∃ r', e.context.run n ⟨.running a ws, r⟩ = ⟨.running a' ws, r'⟩ ∧
            e.context.run (n + 1) ⟨.running a ws, r⟩ = .deliver r' a'.frame.result ws) ∨
          ∃ failure, (e.context.run (n + 1) ⟨.running a ws, r⟩).result?
            = some (.error failure)) := by
  have hwf : e.context.program.WellFormed := Program.wellFormed_of_verify hp
  have hf : e.context.program.BodyWellFormed f := Context.bodyWellFormed_of_run hwf hrun henter
  obtain ⟨a', hshows, hlife, htraverses⟩ := Context.traverses_of_suspends hf henter n hsus
  have hplaced := hlife.placed hf
  refine ⟨a', hshows, hplaced.function_eq, htraverses, hplaced.block, fun hend => ?_⟩
  rw [Context.run_succ] at hend ⊢
  exact hshows.end_cases hend

namespace Rounds

/-- Calls `before` until it answers zero. Both ways out of the first block lead to the second, and
the second leads back to itself. -/
def main : Function :=
  ⟨"main", [⟨"n", .int .int⟩],
    [⟨0, [⟨none, .branch (.bool true) 1 1⟩], [], [1, 1]⟩,
     ⟨1, [⟨some 1, .phi [⟨0, .value 0⟩, ⟨1, .value 2⟩]⟩,
          ⟨some 2, .call (.function 1) [.value 1]⟩,
          ⟨some 3, .binary (.compare .eq) (.value 2) (.int .int 0)⟩,
          ⟨none, .branch (.value 3) 2 1⟩], [0, 1], [2, 1]⟩,
     ⟨2, [⟨none, .ret [.value 2]⟩], [1], []⟩], 0, 4⟩

/-- The number before its argument. -/
def before : Function :=
  ⟨"before", [⟨"n", .int .int⟩],
    [⟨0, [⟨some 1, .binary .sub (.value 0) (.int .int 1)⟩, ⟨none, .ret [.value 1]⟩], [], []⟩], 0, 2⟩

def engine : Engine :=
  .new ⟨[], [main, before]⟩ .unlimited

def number (n : Int) : Value :=
  .int (.ofInt .int n)

/-- The call of `main` with the argument two at its start. -/
def entered : Activation :=
  ⟨main, ⟨#[some (number 2), none, none, none], some 0, none, .unit⟩, .head⟩

/-- This call after the given number of steps. -/
def after (n : Nat) : State :=
  engine.context.run n ⟨.running entered [], engine.resources⟩

/-- The blocks that it executes. -/
def starts : List BlockStart :=
  [⟨none, 0⟩, ⟨some 0, 1⟩, ⟨some 1, 1⟩, ⟨some 1, 2⟩]

end Rounds

/-- The call goes twice round its loop, with two calls of its own, and then returns zero. -/
theorem Engine.calls_follow_control_flow_rounds :
    Rounds.engine.context.blockStarts 0 (Rounds.after 0) 20 = Rounds.starts ∧
      Rounds.main.Traversal Rounds.starts ∧
      ∃ a r, Rounds.after 20 = ⟨.running a [], r⟩ ∧ a.frame.block = none ∧
        a.frame.result = Rounds.number 0 ∧ Rounds.after 21 = .deliver r a.frame.result [] := by
  have hrun : Rounds.engine.context.run 0 (Rounds.engine.context.start Rounds.engine.resources
      (.function 0) [Rounds.number 2]) = Rounds.after 0 := rfl
  have hgoing : (Rounds.after 20).result? = none := rfl
  have hended : (Rounds.after 21).result? = some (.ok (Rounds.number 0)) := rfl
  have hentry : Activation.enter Rounds.main [Rounds.number 2] = .ok Rounds.entered := rfl
  obtain ⟨a, -, -, htraverses, -, hend⟩ :=
    calls_follow_control_flow (e := Rounds.engine) rfl hrun hentry 20 fun k hk =>
      Context.suspends_nil_of_run hgoing hk
  refine ⟨rfl, htraverses.toTraversal, ?_⟩
  have hnot : ¬ (Rounds.after 21).Suspends [] := by
    rintro ⟨top, us, r, h⟩
    rw [h] at hended
    cases hended
  rcases hend hnot with ⟨hblock, r, hbefore, hafter⟩ | ⟨failure, hfails⟩
  · refine ⟨a, r, hbefore, hblock, ?_, hafter⟩
    have hresult : (State.deliver r a.frame.result []).result? = some (.ok (Rounds.number 0)) :=
      hafter ▸ hended
    exact Except.ok.inj (Option.some.inj hresult)
  · cases hended.symm.trans hfails

end SsaMachine
