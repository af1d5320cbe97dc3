import SsaMachine.Proofs.Blame
import SsaMachine.Engine.Basic

set_option autoImplicit false

/-! # Values are bound before they are used

Verification counts definitions but does not look at paths, so a verified program may still use a
value that is not bound yet, or reach a phi from a block that it has no edge for. This file
gives the condition on the control-flow graph under which neither happens
(`Function.Strict`), and shows that it suffices for every run (`Engine.strict_run_finds_values`).

## The invariant

`Function.Path` is a path from the entry, as the blocks that were passed and the block that was
reached. A call follows such a path, and the invariant (`Activation.Follows`) says that everything
that the instructions on the path so far give is bound. Three points need care.

* A phi group reads all its operands before it binds any. What it reads must be bound at the end
  of the *previous* block, and the invariant has that: the previous block has been passed.
* Bindings are replaced in a loop but never removed, so a longer path only adds to what is
  bound, and a path that passes a block twice needs no separate treatment.
* A call that waits keeps its frame, so that what happens above it on the stack does not matter.
  This is part of `Context.Life`.
-/

namespace SsaMachine

/-! ## The condition -/

/-- The instruction gives the value `v`: its result is bound to `v`. -/
def Instr.Gives (i : Instr) (v : ValueId) : Prop :=
  i.dest = some v ∧ i.op.yieldsValue = true

/-- A path from the entry to the block `b`. The blocks passed on the way stand in reverse, the
previous one first. -/
inductive Function.Path (f : Function) : List Block → Block → Prop
  | entry {b : Block} (h : f.block? f.entry = some b) : Path f [] b
  | edge {passed : List Block} {a b : Block} {t : BlockId} (h : Path f passed a)
      (ht : t ∈ a.succs) (hb : f.block? t = some b) : Path f (a :: passed) b

/-- The instructions of the blocks passed, and some instructions after them. -/
def Block.trail (passed : List Block) (is : List Instr) : List Instr :=
  passed.flatMap Block.instrs ++ is

/-- Every value is given on every path to a place that uses it, and every phi has an edge for
every way to it. The operand of a phi is used at the end of the block that its edge comes from. -/
structure Function.Strict (f : Function) : Prop where
  uses : ∀ b ∈ f.blocks, ∀ k i v, b.instrs[k]? = some i → i.op.isPhi = false →
    i.op.Uses (.value v) → v < f.params.length ∨
      ∀ passed, f.Path passed b → ∃ j ∈ Block.trail passed (b.instrs.take k), j.Gives v
  edges : ∀ b ∈ f.blocks, ∀ i ∈ b.instrs, ∀ edges, i.op = .phi edges → ∀ e ∈ edges, ∀ v,
    e.operand = .value v → v < f.params.length ∨
      ∀ passed a, f.block? e.pred = some a → f.Path passed a →
        ∃ j ∈ Block.trail passed a.instrs, j.Gives v
  complete : ∀ b ∈ f.blocks, ∀ i ∈ b.instrs, ∀ edges, i.op = .phi edges →
    ∀ a ∈ b.preds, ∃ e ∈ edges, e.pred = a
  entry : ∀ b, f.block? f.entry = some b → ∀ i ∈ b.instrs, i.op.isPhi = false

/-! ## A strict program -/

/-- The entry block is on every path. -/
theorem Function.Path.entry_mem {f : Function} {passed : List Block} {b b₀ : Block}
    (h : f.Path passed b) (hb₀ : f.block? f.entry = some b₀) : b₀ = b ∨ b₀ ∈ passed := by
  induction h with
  | entry hb => exact .inl (Option.some.inj (hb₀.symm.trans hb))
  | edge _ _ _ ih =>
      refine .inr ?_
      rcases ih with rfl | hmem
      · exact List.mem_cons_self
      · exact List.mem_cons_of_mem _ hmem

/-- What the entry block gives is given on every path to another block. -/
theorem Function.Path.exists_gives_of_entry {f : Function} {passed : List Block} {b b₀ : Block}
    {i : Instr} {v : ValueId} (is : List Instr) (h : f.Path passed b)
    (hb₀ : f.block? f.entry = some b₀) (hne : b₀ ≠ b) (hi : i ∈ b₀.instrs) (hv : i.Gives v) :
    ∃ j ∈ Block.trail passed is, j.Gives v := by
  rcases h.entry_mem hb₀ with heq | hmem
  · exact absurd heq hne
  · refine ⟨i, List.mem_append_left _ ?_, hv⟩
    exact List.mem_flatMap.mpr ⟨b₀, hmem, hi⟩

namespace Countdown

/-- The entry: a number to count down from. -/
def start : Block :=
  ⟨0, [⟨some 1, .binary .add (.value 0) (.int .int 1)⟩, ⟨none, .jump 1⟩], [], [1]⟩

/-- A loop without an exit: it divides by the count. -/
def loop : Block :=
  ⟨1,
    [⟨some 2, .phi [⟨0, .value 1⟩, ⟨1, .value 3⟩]⟩,
     ⟨some 3, .binary .sub (.value 2) (.int .int 1)⟩,
     ⟨some 4, .binary .quo (.value 1) (.value 3)⟩,
     ⟨none, .jump 1⟩], [0, 1], [1]⟩

def main : Function :=
  ⟨"main", [⟨"n", .int .int⟩], [start, loop], 0, 5⟩

def program : Program where
  globals := []
  functions := [main]

theorem start_ne_loop : start ≠ loop := by
  intro h
  cases congrArg Block.id h

theorem phi_main {b : Block} {i : Instr} {edges : List PhiEdge} (hb : b ∈ main.blocks)
    (hi : i ∈ b.instrs) (hop : i.op = .phi edges) :
    b = loop ∧ edges = [⟨0, .value 1⟩, ⟨1, .value 3⟩] := by
  simp only [main, List.mem_cons, List.not_mem_nil, or_false] at hb
  rcases hb with rfl | rfl
  · simp only [start, List.mem_cons, List.not_mem_nil, or_false] at hi
    rcases hi with rfl | rfl <;> cases hop
  · simp only [loop, List.mem_cons, List.not_mem_nil, or_false] at hi
    rcases hi with rfl | rfl | rfl | rfl <;> cases hop
    exact ⟨rfl, rfl⟩

/-- The function is strict, although the loop is entered in two ways and uses what it has given
itself on the previous round. -/
theorem strict_main : main.Strict where
  uses := by
    intro b hb k i v hk hop hx
    rcases List.mem_cons.mp hb with rfl | hb
    · match k, hk with
      | 0, hk =>
        cases hk
        cases hx
        exact .inl Nat.one_pos
      | 1, hk => cases hk; cases hx
    · rw [List.mem_singleton.mp hb] at hk ⊢
      refine .inr fun passed hpath => ?_
      match k, hk with
      | 0, hk => cases hk; cases hop
      | 1, hk =>
        cases hk
        cases hx
        exact ⟨_, List.mem_append_right _ List.mem_cons_self, rfl, rfl⟩
      | 2, hk =>
        cases hk
        cases hx with
        | binaryLeft =>
            exact hpath.exists_gives_of_entry _ rfl start_ne_loop List.mem_cons_self ⟨rfl, rfl⟩
        | binaryRight =>
            exact ⟨_, List.mem_append_right _ (List.mem_cons_of_mem _ List.mem_cons_self),
              rfl, rfl⟩
      | 3, hk => cases hk; cases hx
  edges := by
    intro b hb i hi edges hop e he v hv
    refine .inr fun passed a ha hpath => ?_
    obtain ⟨-, rfl⟩ := phi_main hb hi hop
    rcases List.mem_cons.mp he with rfl | he
    · cases ha
      cases hv
      exact ⟨_, List.mem_append_right _ List.mem_cons_self, rfl, rfl⟩
    · rw [List.mem_singleton.mp he] at ha hv
      cases ha
      cases hv
      exact ⟨_, List.mem_append_right _ (List.mem_cons_of_mem _ List.mem_cons_self), rfl, rfl⟩
  complete := by
    intro b hb i hi edges hop a ha
    obtain ⟨rfl, rfl⟩ := phi_main hb hi hop
    revert a
    decide
  entry := by
    intro b hb i hi
    cases hb
    revert i
    decide

end Countdown

/-! ## What a frame holds -/

/-- Everything that the instructions give is bound. -/
def Frame.Holds (f : Frame) (is : List Instr) : Prop :=
  ∀ i ∈ is, ∀ v, i.Gives v → f.Bound v

theorem Frame.Holds.grows {f g : Frame} {is : List Instr} (h : f.Holds is) (hg : f.Grows g) :
    g.Holds is :=
  fun i hi v hv => hg.bound v (h i hi v hv)

theorem Frame.Holds.append {f : Frame} {is js : List Instr} (h : f.Holds is) (h' : f.Holds js) :
    f.Holds (is ++ js) := by
  intro i hi v hv
  rcases List.mem_append.mp hi with hi | hi
  · exact h i hi v hv
  · exact h' i hi v hv

/-- One more instruction has been executed. -/
theorem Frame.Holds.take_succ {f : Frame} {b : Block} {passed : List Block} {k : Nat} {i : Instr}
    (h : f.Holds (Block.trail passed (b.instrs.take k))) (hk : b.instrs[k]? = some i)
    (hi : ∀ v, i.Gives v → f.Bound v) :
    f.Holds (Block.trail passed (b.instrs.take (k + 1))) := by
  have hsplit : Block.trail passed (b.instrs.take (k + 1))
      = Block.trail passed (b.instrs.take k) ++ [i] := by
    simp [Block.trail, List.take_add_one, hk]
  rw [hsplit]
  refine h.append fun j hj v hv => ?_
  rw [List.mem_singleton.mp hj] at hv
  exact hi v hv

theorem Block.mem_trail_cons {b : Block} {passed : List Block} {is : List Instr} {j : Instr} :
    j ∈ trail (b :: passed) is ↔ j ∈ trail passed b.instrs ∨ j ∈ is := by
  simp only [trail, List.flatMap_cons, List.mem_append]
  rw [or_comm (a := j ∈ b.instrs)]

/-- The block has been passed as a whole: its terminator stands last and gives nothing. -/
theorem Frame.Holds.leave {f : Frame} {b : Block} {passed : List Block} {k : Nat} {i : Instr}
    (h : f.Holds (Block.trail passed (b.instrs.take k))) (hb : b.EndsOnce)
    (hk : b.instrs[k]? = some i) (hi : i.op.isTerminator = true) :
    f.Holds (Block.trail (b :: passed) []) := by
  have hall : f.Holds (Block.trail passed (b.instrs.take (k + 1))) := by
    refine h.take_succ hk fun v hv => ?_
    have hnot := Operation.isTerminator_of_yieldsValue hv.2
    rw [hi] at hnot
    cases hnot
  rw [(hb.isTerminator_iff hk).mp hi, List.take_length] at hall
  intro j hj v hv
  rcases Block.mem_trail_cons.mp hj with hj | hj
  · exact hall j hj v hv
  · cases hj

/-! ## The invariant of a call -/

/-- The position of a call in its block, the head being the first. -/
def Point.index : Point → Nat
  | head => 0
  | instr k => k

/-- The call has followed a path, and everything that was given on it is bound. -/
structure Activation.Follows (f : Function) (a : Activation) : Prop where
  params : ∀ v < f.params.length, a.frame.Bound v
  path : ∀ id b, a.frame.block = some id → f.block? id = some b →
    ∃ passed, f.Path passed b ∧ a.frame.previous = passed.head?.map Block.id ∧
      a.frame.Holds (Block.trail passed (b.instrs.take a.point.index))

/-- Control proceeds by one position, with the result of the instruction bound. -/
theorem Activation.Follows.next {f : Function} {a : Activation} {id : BlockId} {b : Block}
    {k : Nat} {i : Instr} {g : Frame} (h : a.Follows f) (ha : a.Placed f) (hat : a.At id b k i)
    (hg : a.frame.Grows g) (hi : ∀ v, i.Gives v → g.Bound v) :
    Follows f ⟨a.function, g, .instr (k + 1)⟩ := by
  have hb : f.block? id = some b := ha.block?_eq hat.block
  refine ⟨fun v hv => hg.bound v (h.params v hv), fun id' b' hid' hb' => ?_⟩
  rw [hg.eq_of_block hat.current hid', hb] at hb'
  cases hb'
  obtain ⟨passed, hpath, hprev, hholds⟩ := h.path id b hat.current hb
  simp only [hat.point, Point.index] at hholds
  exact ⟨passed, hpath, hg.previous_eq.trans hprev, (hholds.grows hg).take_succ hat.instr hi⟩

/-- The phis at the head are the first instructions of the block. -/
theorem Block.take_headPhis (b : Block) : b.instrs.take b.headPhis.length = b.headPhis :=
  (List.prefix_iff_eq_take.mp (List.takeWhile_prefix _)).symm

theorem Activation.Follows.move {p : Program} {f : Function} {c : Context} {r r' : Resources}
    {a a' : Activation} (hf : p.BodyWellFormed f) (h : a.Follows f) (ha : a.Placed f)
    (hm : c.Move r a r' a') : a'.Follows f := by
  cases hm with
  | @phis id b g n hid hb hp hphis =>
      obtain ⟨hg, rfl, hbound⟩ := Context.resolvePhis_eq_ok hphis
      have hb : f.block? id = some b := ha.block?_eq hb
      refine ⟨fun v hv => hg.bound v (h.params v hv), fun id' b' hid' hb' => ?_⟩
      rw [hg.eq_of_block hid hid', hb] at hb'
      cases hb'
      obtain ⟨passed, hpath, hprev, hholds⟩ := h.path id b hid hb
      refine ⟨passed, hpath, hg.previous_eq.trans hprev, ?_⟩
      -- the group has just bound what its own phis give; the rest was bound on the path
      show g.Holds (Block.trail passed (b.instrs.take b.headPhis.length))
      rw [b.take_headPhis]
      refine Frame.Holds.append ?_ fun i hi v hv => hbound i hi v hv.1
      rw [hp] at hholds
      simpa [Block.trail, Point.index] using hholds.grows hg
  | proceed hat hex =>
      rcases Context.execute_eq_proceed hex with ⟨-, hnone, rfl, -⟩ | ⟨-, -, v, hdef⟩
      · refine h.next ha hat (.refl _) fun v hv => ?_
        have hyields := hv.2
        rw [hnone] at hyields
        cases hyields
      · obtain ⟨hg, hdest⟩ := Frame.define_eq_ok hdef
        exact h.next ha hat hg fun v hv => hdest v hv.1
  | @goto id b k i t hat hex =>
      refine ⟨h.params, fun id' b' hid' hb' => ?_⟩
      cases hid'
      have hb : f.block? id = some b := ha.block?_eq hat.block
      have hmem : b ∈ f.blocks := f.mem_blocks_of_block? hb
      have ht := Context.execute_eq_goto hex
      have hends := hf.endsOnce b hmem
      obtain ⟨passed, hpath, -, hholds⟩ := h.path id b hat.current hb
      refine ⟨b :: passed, ?_, ?_, ?_⟩
      · refine .edge hpath ?_ hb'
        rw [hf.succs b hmem]
        exact hends.mem_targets hat.instr ht
      · show a.frame.block = some b.id
        rw [hat.current, hf.numbered id b hb]
      · simp only [hat.point, Point.index] at hholds
        exact hholds.leave hends hat.instr (Operation.isTerminator_of_mem_targets ht)
  | exit hat hex => exact ⟨h.params, fun id b hid => by cases hid⟩

theorem Activation.Follows.answer {f : Function} {c : Context} {m : Memory} {callee : Callee}
    {vs : List Value} {w : Caller} {v : Value} {a a' : Activation} (h : a.Follows f)
    (ha : a.Placed f) (hc : c.Calls m a callee vs w) (hv : w.resume v = .ok a') : a'.Follows f := by
  cases hc with
  | intro hat hex =>
      obtain ⟨g, hdef, rfl⟩ := Caller.resume_eq_ok hv
      obtain ⟨hg, hdest⟩ := Frame.define_eq_ok hdef
      exact h.next ha hat hg fun v hv => hdest v hv.1

/-- **A call of a well-formed function holds everything given on the path that it followed.** -/
theorem Context.Life.follows {p : Program} {f : Function} {c : Context} {args : List Value}
    {a : Activation} (hf : p.BodyWellFormed f) (h : c.Life f args a) : a.Follows f := by
  induction h with
  | enter he =>
      obtain ⟨-, hpoint, -, hblock, hprev, hparams⟩ := Activation.enter_eq_ok he
      refine ⟨hparams, fun id b hid hb => ⟨[], ?_, hprev, ?_⟩⟩
      · rw [Option.some.inj (hid.symm.trans hblock)] at hb
        exact .entry hb
      · rw [hpoint]
        intro i hi
        cases hi
  | move hlife hm ih => exact ih.move hf (hlife.placed hf) hm
  | answer hlife hc hv ih => exact ih.answer (hlife.placed hf) hc hv

/-! ## No value and no edge is missing -/

/-- Whether the fault says that a value, or the edge of a phi, could not be found. -/
def Fault.isLookup : Fault → Bool
  | unboundValue _ | noPhiEdge _ => true
  | _ => false

theorem Operation.CanRaise.not_lookup {op : Operation} {fault : Fault} (h : op.CanRaise fault) :
    fault.isLookup = false := by
  cases h <;> rfl

theorem Globals.address_eq_error {g : Globals} {name : String} {fault : Fault}
    (h : g.address name = .error fault) : fault = .unknownGlobal name := by
  unfold address at h
  split at h <;> cases h
  rfl

/-- An operand whose value is bound, if it is one, is not missing anything in the frame. -/
theorem Context.eval_not_lookup {c : Context} {f : Frame} {x : Operand} {fault : Fault}
    (hbound : ∀ v, x = .value v → f.Bound v) (h : c.eval f x = .error fault) :
    fault.isLookup = false := by
  rcases eval_eq_error h with ⟨v, hx, hnot, -⟩ | ⟨k, -, rfl⟩ | ⟨id, -, hfault⟩
  · exact absurd (hbound v hx) hnot
  · rfl
  · unfold globalAddress at hfault
    split at hfault
    · rw [Globals.address_eq_error hfault]
      rfl
    · cases hfault
      rfl

theorem Function.Path.block?_id {f : Function} {passed : List Block} {b : Block}
    (h : f.Path passed b) (hf : f.GraphWellFormed) : f.block? b.id = some b := by
  cases h with
  | entry hb => rwa [hf.numbered _ _ hb]
  | edge _ _ hb => rwa [hf.numbered _ _ hb]

/-- Every value that an instruction other than a phi uses is bound when control reaches it. -/
theorem Activation.Follows.bound_of_uses {f : Function} {a : Activation} {id : BlockId}
    {b : Block} {k : Nat} {i : Instr} {v : ValueId} (h : a.Follows f) (hf : f.Strict)
    (ha : a.Placed f) (hat : a.At id b k i) (hop : i.op.isPhi = false)
    (hv : i.op.Uses (.value v)) : a.frame.Bound v := by
  have hb : f.block? id = some b := ha.block?_eq hat.block
  rcases hf.uses b (f.mem_blocks_of_block? hb) k i v hat.instr hop hv with hlt | hgiven
  · exact h.params v hlt
  · obtain ⟨passed, hpath, -, hholds⟩ := h.path id b hat.current hb
    simp only [hat.point, Point.index] at hholds
    obtain ⟨j, hj, hgives⟩ := hgiven passed hpath
    exact hholds j hj v hgives

/-- Every phi, at the head of its block or not, finds its edge and the value that stands there. -/
theorem Activation.Follows.selectEdge_not_lookup {c : Context} {f : Function} {a : Activation}
    {id : BlockId} {b : Block} {i : Instr} {edges : List PhiEdge} {fault : Fault}
    (h : a.Follows f) (hf : f.GraphWellFormed) (hstrict : f.Strict)
    (hid : a.frame.block = some id) (hb : f.block? id = some b) (hi : i ∈ b.instrs)
    (hop : i.op = .phi edges) (hsel : c.selectEdge a.frame edges = .error fault) :
    fault.isLookup = false := by
  have hmem : b ∈ f.blocks := f.mem_blocks_of_block? hb
  obtain ⟨passed, hpath, hprev, hholds⟩ := h.path id b hid hb
  cases hpath with
  | entry hentry =>
      have hnot := hstrict.entry b hentry i hi
      rw [hop] at hnot
      cases hnot
  | @edge passed pred _ t hpred ht hbt =>
      have hpred' : f.block? pred.id = some pred := hpred.block?_id hf
      rcases Context.selectEdge_eq_error hsel with ⟨e, he, hfrom, hev⟩ | ⟨hnone, -⟩
      · refine Context.eval_not_lookup (fun v hv => ?_) hev
        rcases hstrict.edges b hmem i hi edges hop e he v hv with hlt | hgiven
        · exact h.params v hlt
        · -- the edge comes from the block passed last, and what is given up to its end is bound
          have heq : e.pred = pred.id := Option.some.inj (hfrom.trans hprev)
          obtain ⟨j, hj, hgives⟩ := hgiven passed pred (heq ▸ hpred') hpred
          exact hholds j (Block.mem_trail_cons.mpr (.inl hj)) v hgives
      · have hrecorded : pred.id ∈ b.preds := by
          refine (hf.preds b hmem pred.id).mpr ⟨pred, hpred', ?_⟩
          rwa [hf.numbered t b hbt]
        obtain ⟨e, he, heq⟩ := hstrict.complete b hmem i hi edges hop pred.id hrecorded
        have hfrom : some e.pred = a.frame.previous := by
          rw [heq, hprev]
          rfl
        exact absurd hfrom (hnone e he)

/-- Among the failures that are left in a well-formed program, those that miss a value or an edge
do not occur when the functions are strict. -/
theorem Context.Blames.not_lookup {c : Context} {r : Resources} {a : Activation}
    {failure : Failure} (hp : c.program.WellFormed)
    (hstrict : ∀ f ∈ c.program.functions, f.isExternal = false → f.Strict) (ha : c.Lives a)
    (hnatives : r.registry.All (·.Avoids (·.isLookup = true))) (h : c.Blames r a failure) :
    failure.fault.isLookup = false := by
  obtain ⟨f, args, hmem, hbody, hlife⟩ := ha
  have hf := hp.bodies f hmem hbody
  have hplaced := hlife.placed hf
  have hfollows := hlife.follows hf
  cases h with
  | operand hat hop hx hev =>
      refine eval_not_lookup (fun v hv => ?_) hev
      exact hfollows.bound_of_uses (hstrict f hmem hbody) hplaced hat hop (hv ▸ hx)
  | edge hid hb hk hop hsel =>
      exact hfollows.selectEdge_not_lookup hf.toGraphWellFormed (hstrict f hmem hbody) hid
        (hplaced.block?_eq hb) (List.mem_of_getElem? hk) hop hsel
  | own hat hraise => exact hraise.not_lookup
  | native hat hop ht hn =>
      rcases Resources.callNative_eq_error hnatives hn with rfl | hgood
      · rfl
      · simpa using hgood
  | argument => rfl

/-- **Execution is sound for strict programs.** Take a verified program in which every value is
given on every path to its use and every phi has an edge for every way to it. A run of a
function with a body, on an engine in any state, with as many arguments as the function has
parameters, never ends because a value is not bound or because a phi has no edge, at whatever
depth of calls. -/
theorem Engine.strict_run_finds_values {p : Program} (hp : p.verify = .ok ())
    (hstrict : ∀ f ∈ p.functions, f.isExternal = false → f.Strict) {e : Engine}
    (he : e.program = p) (hnatives : e.resources.registry.All (·.Avoids (·.isLookup = true)))
    {id : FunctionId} {f : Function} (hf : p.function? id = some f)
    (hbody : f.isExternal = false) {args : List Value} (hargs : args.length = f.params.length)
    (fuel : Nat) {failure : Failure}
    (h : (e.call fuel (.function id) args).1 = some (.error failure)) :
    (∀ v, failure.fault ≠ .unboundValue v) ∧
      ∀ previous, failure.fault ≠ .noPhiEdge previous := by
  subst he
  have hwf : e.context.program.WellFormed := Program.wellFormed_of_verify hp
  have hlookup : failure.fault.isLookup = false := by
    rcases Context.blames_of_run hwf hf hbody hargs h with
      ⟨param, arg, rfl, -⟩ | ⟨a, r, ha, hr, hblames⟩
    · rfl
    · exact hblames.not_lookup hwf hstrict ha (hr.registry hnatives)
  constructor
  · intro v hv
    rw [hv] at hlookup
    cases hlookup
  · intro previous hv
    rw [hv] at hlookup
    cases hlookup

/-- The loop runs three times and then fails, at the division. -/
theorem Engine.strict_run_finds_values_countdown :
    ∃ failure : Failure,
      ((Engine.new Countdown.program .unlimited).call 20 (.function 0)
        [.int (.ofInt .int 2)]).1 = some (.error failure) ∧
      (∀ v, failure.fault ≠ .unboundValue v) ∧
      ∀ previous, failure.fault ≠ .noPhiEdge previous := by
  have hrun : ((Engine.new Countdown.program .unlimited).call 20 (.function 0)
      [.int (.ofInt .int 2)]).1 = some (.error ⟨.divisionByZero, some ⟨"main", 1, 2⟩⟩) := rfl
  have hstrict : ∀ f ∈ Countdown.program.functions, f.isExternal = false → f.Strict := by
    intro f hf _
    rw [List.mem_singleton.mp hf]
    exact Countdown.strict_main
  have hnatives : Registry.standard.All (·.Avoids (·.isLookup = true)) :=
    Registry.all_standard (Native.avoids_writing fun message h => by cases h)
  exact ⟨_, hrun, strict_run_finds_values (p := Countdown.program) rfl hstrict rfl hnatives
    (f := Countdown.main) rfl rfl rfl 20 hrun⟩

end SsaMachine
