import SsaMachine.Draft.Program
import SsaMachine.Proofs.WellFormed

set_option autoImplicit false

/-! # What drafting guarantees

A program is drafted by calls in any order: blocks are opened and left, values are numbered as
they come, edges are added to phis long after these were drafted, bodies are put into their
places once or more often. This file says what holds of everything that comes out
(`Workshop.drafts_agree_with_verification`), whatever the calls were:

* the recorded edges of a finished function are those of its terminators, in both directions
  and with their multiplicities;
* verification finds no fault with what the draft is responsible for: the entry, the numbers
  of the blocks, the recorded edges, and the numbers of the values that are defined.

## The invariant

Edges are derived at the end from the blocks alone, so nothing has to be carried along for them.
For the numbers of the values the draft maintains `BodyDraft.Fresh`: the values defined so far are
different from each other and from the parameters, and below the next number. A number is
used up even when its instruction is lost because the current block does not exist, which
keeps the invariant. Giving a phi one more edge changes no number (`BodyDraft.dests_addPhiEdge`).
-/

namespace SsaMachine

/-! ## Calls -/

/-- The calls that change the draft of a body. -/
inductive BodyDraft.Call where
  | newBlock
  | switchTo (b : BlockId)
  | store (addr value : Operand)
  | unary (op : UnaryOp) (x : Operand)
  | binary (op : BinaryOp) (x y : Operand)
  | call (callee : Callee) (args : List Operand)
  | convert (ty : Ty) (x : Operand)
  | phi (edges : List PhiEdge)
  | addPhiEdge (v : ValueId) (e : PhiEdge)
  | ret (results : List Operand)
  | branch (cond : Operand) (onTrue onFalse : BlockId)
  | jump (target : BlockId)

/-- The draft of a body after a call. -/
def BodyDraft.apply (d : BodyDraft) : Call → BodyDraft
  | .newBlock => (newBlock.run d).2
  | .switchTo b => ((switchTo b).run d).2
  | .store addr value => ((store addr value).run d).2
  | .unary op x => ((unary op x).run d).2
  | .binary op x y => ((binary op x y).run d).2
  | .call callee args => ((call callee args).run d).2
  | .convert ty x => ((convert ty x).run d).2
  | .phi edges => ((phi edges).run d).2
  | .addPhiEdge v e => ((addPhiEdge v e).run d).2
  | .ret results => ((ret results).run d).2
  | .branch cond onTrue onFalse => ((branch cond onTrue onFalse).run d).2
  | .jump target => ((jump target).run d).2

/-- The draft of a program, and the bodies that have been started for it. -/
structure Workshop where
  program : ProgramDraft
  bodies : List BodyDraft

/-- The calls on the draft of a program and on the bodies, which are known by the order in which
they were started. -/
inductive Workshop.Call where
  | global (name : String) (ty : Ty)
  | declare (name : String) (params : List Param)
  | external (name : String) (params : List Param)
  | body (id : FunctionId)
  | edit (k : Nat) (c : BodyDraft.Call)
  | define (k : Nat)

/-- The state of the workshop before the first call. -/
def Workshop.empty : Workshop :=
  ⟨.empty, []⟩

/-- The state of the workshop after a call. A body stays available after it was put into its
place, so that it can be changed and put there again. -/
def Workshop.apply (w : Workshop) : Call → Workshop
  | .global name ty => { w with program := ((ProgramDraft.global name ty).run w.program).2 }
  | .declare name params =>
    { w with program := ((ProgramDraft.declare name params).run w.program).2 }
  | .external name params =>
    { w with program := ((ProgramDraft.external name params).run w.program).2 }
  | .body id => { w with bodies := w.bodies ++ [w.program.body id] }
  | .edit k c => { w with bodies := w.bodies.modify k (·.apply c) }
  | .define k =>
    match w.bodies[k]? with
    | some d => { w with program := ((ProgramDraft.define d).run w.program).2 }
    | none => w

/-- The state of the workshop after some calls. -/
def Workshop.applyAll (w : Workshop) (cs : List Call) : Workshop :=
  cs.foldl Workshop.apply w

/-! ## The numbers of the values -/

/-- The values that the instructions of some drafted blocks define, as often as they do. -/
def BodyDraft.destsOf (blocks : List (List Instr)) : List ValueId :=
  blocks.flatMap fun is => is.filterMap Instr.dest

/-- There is a block to start in, and the defined values are different from each other, from the
parameters, and from all values to come. -/
structure BodyDraft.Fresh (d : BodyDraft) : Prop where
  blocks : d.blocks ≠ []
  params : d.params.length ≤ d.nextValue
  nodup : (destsOf d.blocks).Nodup
  range : ∀ v ∈ destsOf d.blocks, d.params.length ≤ v ∧ v < d.nextValue

theorem BodyDraft.fresh_start (id : FunctionId) (name : String) (params : List Param) :
    (start id name params).Fresh where
  blocks := by simp [start]
  params := Nat.le_refl _
  nodup := List.nodup_nil
  range := fun v hv => absurd hv List.not_mem_nil

/-- An instruction that is drafted either goes to the end of a block or is lost. -/
theorem BodyDraft.destsOf_modify (blocks : List (List Instr)) (k : Nat) (i : Instr) :
    (destsOf (blocks.modify k (· ++ [i]))).Perm (i.dest.toList ++ destsOf blocks) ∨
      destsOf (blocks.modify k (· ++ [i])) = destsOf blocks := by
  rcases Nat.lt_or_ge k blocks.length with hlt | hge
  · obtain ⟨before, is, rest, hblocks, -, hmod⟩ := List.exists_of_modify (· ++ [i]) hlt
    left
    have hnew : destsOf (blocks.modify k (· ++ [i]))
        = (destsOf before ++ is.filterMap Instr.dest) ++ (i.dest.toList ++ destsOf rest) := by
      rw [hmod]
      cases hi : i.dest <;> simp [destsOf, hi]
    have hold : i.dest.toList ++ destsOf blocks
        = i.dest.toList ++ (destsOf before ++ is.filterMap Instr.dest) ++ destsOf rest := by
      simp [destsOf, hblocks]
    rw [hnew, hold, ← List.append_assoc]
    exact List.perm_append_comm.append_right _
  · right
    rw [List.modify_eq_self hge]

/-- A drafted instruction keeps the values fresh if it defines none, or the next one. -/
theorem BodyDraft.Fresh.push {d : BodyDraft} (h : d.Fresh) (i : Instr) (n : Nat)
    (hn : d.nextValue ≤ n) (hi : ∀ v, i.dest = some v → v = d.nextValue ∧ v < n) :
    Fresh { d.push i with nextValue := n } := by
  have hblocks : d.blocks.modify d.current (· ++ [i]) ≠ [] := by
    intro hnil
    have hlen := congrArg List.length hnil
    rw [List.length_modify] at hlen
    exact h.blocks (List.length_eq_zero_iff.mp hlen)
  have hrange : ∀ v ∈ destsOf d.blocks, d.params.length ≤ v ∧ v < n := by
    intro v hv
    obtain ⟨hle, hlt⟩ := h.range v hv
    exact ⟨hle, Nat.lt_of_lt_of_le hlt hn⟩
  have hparams : d.params.length ≤ n := Nat.le_trans h.params hn
  rcases destsOf_modify d.blocks d.current i with hperm | hsame
  · cases hdest : i.dest with
    | none =>
        rw [hdest] at hperm
        exact ⟨hblocks, hparams, hperm.nodup_iff.mpr h.nodup,
          fun v hv => hrange v (hperm.mem_iff.mp hv)⟩
    | some w =>
        rw [hdest] at hperm
        obtain ⟨hw, hlt⟩ := hi w hdest
        refine ⟨hblocks, hparams, hperm.nodup_iff.mpr (List.nodup_cons.mpr ⟨?_, h.nodup⟩), ?_⟩
        · intro hmem
          exact Nat.ne_of_lt (h.range w hmem).2 hw
        · intro v hv
          rcases List.mem_cons.mp (hperm.mem_iff.mp hv) with rfl | hmem
          · exact ⟨hw ▸ h.params, hlt⟩
          · exact hrange v hmem
  · exact ⟨hblocks, hparams, hsame ▸ h.nodup, fun v hv => hrange v (hsame ▸ hv)⟩

theorem BodyDraft.Fresh.perform {d : BodyDraft} (h : d.Fresh) (op : Operation) :
    (d.push ⟨none, op⟩).Fresh :=
  h.push ⟨none, op⟩ d.nextValue (Nat.le_refl _) fun v hv => by cases hv

theorem BodyDraft.Fresh.define {d : BodyDraft} (h : d.Fresh) (op : Operation) :
    Fresh { d.push ⟨some d.nextValue, op⟩ with nextValue := d.nextValue + 1 } := by
  refine h.push ⟨some d.nextValue, op⟩ (d.nextValue + 1) (Nat.le_succ _) fun v hv => ?_
  cases hv
  exact ⟨rfl, Nat.lt_succ_self _⟩

/-- A change that a view does not see is not seen wherever it is made. -/
theorem flatMap_modifyFirst {α β : Type} {c : α → Bool} {f : α → α} {g : α → List β}
    (h : ∀ x, g (f x) = g x) (l : List α) : (modifyFirst c f l).flatMap g = l.flatMap g := by
  induction l with
  | nil => rfl
  | cons x xs ih =>
      unfold modifyFirst
      split
      · rw [List.flatMap_cons, List.flatMap_cons, h]
      · rw [List.flatMap_cons, List.flatMap_cons, ih]

theorem modifyFirst_eq_nil_iff {α : Type} {c : α → Bool} {f : α → α} {l : List α} :
    modifyFirst c f l = [] ↔ l = [] := by
  cases l with
  | nil => simp [modifyFirst]
  | cons x xs =>
      unfold modifyFirst
      split <;> simp

theorem Instr.dest_addEdge (i : Instr) (e : PhiEdge) : (i.addEdge e).dest = i.dest := by
  unfold addEdge
  split <;> rfl

/-- Giving a phi one more edge defines no value and loses none. -/
theorem BodyDraft.dests_addPhiEdge (d : BodyDraft) (v : ValueId) (e : PhiEdge) :
    destsOf ((addPhiEdge v e).run d).2.blocks = destsOf d.blocks := by
  refine flatMap_modifyFirst (fun is => ?_) d.blocks
  rw [List.filterMap_eq_flatMap_toList, List.filterMap_eq_flatMap_toList]
  exact flatMap_modifyFirst (fun i => by rw [i.dest_addEdge e]) is

theorem BodyDraft.Fresh.addPhiEdge {d : BodyDraft} (h : d.Fresh) (v : ValueId) (e : PhiEdge) :
    ((addPhiEdge v e).run d).2.Fresh := by
  have hdests := d.dests_addPhiEdge v e
  refine ⟨?_, h.params, hdests ▸ h.nodup, fun w hw => h.range w (hdests ▸ hw)⟩
  intro hnil
  exact h.blocks (modifyFirst_eq_nil_iff.mp hnil)

/-- **Every call on a body keeps its values fresh.** -/
theorem BodyDraft.Fresh.apply {d : BodyDraft} (h : d.Fresh) (c : Call) : (d.apply c).Fresh := by
  cases c with
  | newBlock =>
      have hdests : destsOf (d.blocks ++ [[]]) = destsOf d.blocks := by simp [destsOf]
      exact ⟨by simp [BodyDraft.apply, newBlock, StateT.run], h.params, hdests ▸ h.nodup,
        fun v hv => h.range v (hdests ▸ hv)⟩
  | switchTo b => exact ⟨h.blocks, h.params, h.nodup, h.range⟩
  | store addr value => exact h.perform _
  | unary op x => exact h.define _
  | binary op x y => exact h.define _
  | call callee args => exact h.define _
  | convert ty x => exact h.define _
  | phi edges => exact h.define _
  | addPhiEdge v e => exact h.addPhiEdge v e
  | ret results => exact h.perform _
  | branch cond onTrue onFalse => exact h.perform _
  | jump target => exact h.perform _

/-! ## The edges of a finished body -/

theorem BodyDraft.block?_finish (d : BodyDraft) (k : BlockId) :
    d.finish.block? k = d.blocks[k]?.map fun is =>
      { id := k, instrs := is, preds := predsOf d.blocks k, succs := targetsOf is } := by
  simp only [Function.block?, finish, List.getElem?_map, List.getElem?_zipIdx, Option.map_map,
    Nat.zero_add]
  rfl

/-- The blocks that lead to `b`, when the first of some blocks has the number `n`: the block
numbered `a` is among them as often as it leads to `b`. -/
theorem BodyDraft.count_predsFrom (blocks : List (List Instr)) (a b : BlockId) (n : Nat) :
    ((blocks.zipIdx n).flatMap fun (is, i) => ((targetsOf is).filter (· == b)).map fun _ => i).count
        (n + a)
      = ((blocks[a]?.map targetsOf).getD []).count b := by
  induction blocks generalizing a n with
  | nil => simp
  | cons is rest ih =>
      rw [List.zipIdx_cons, List.flatMap_cons, List.count_append]
      dsimp only
      rw [List.map_const', List.count_replicate, ← List.countP_eq_length_filter]
      cases a with
      | zero =>
          -- the later blocks have greater numbers
          have hrest : ((rest.zipIdx (n + 1)).flatMap fun (is, i) =>
              ((targetsOf is).filter (· == b)).map fun _ => i).count (n + 0) = 0 := by
            rw [List.count_eq_zero]
            intro hmem
            obtain ⟨⟨is', k⟩, hk, hin⟩ := List.mem_flatMap.mp hmem
            obtain ⟨-, -, heq⟩ := List.mem_map.mp hin
            have hle := (List.le_snd_of_mem_zipIdx hk)
            simp only at heq hle
            omega
          rw [hrest]
          simp [List.count]
      | succ a =>
          have hshift : n + (a + 1) = n + 1 + a := by omega
          have hne : (n == n + 1 + a) = false := by
            rw [beq_eq_false_iff_ne]
            omega
          rw [hshift, hne, ih a (n + 1)]
          simp

theorem BodyDraft.count_predsOf (blocks : List (List Instr)) (a b : BlockId) :
    (predsOf blocks b).count a = ((blocks[a]?.map targetsOf).getD []).count b := by
  have h := count_predsFrom blocks a b 0
  rwa [Nat.zero_add] at h

/-- The blocks that lead to `b` stand in increasing order. -/
theorem BodyDraft.pairwise_predsOf (blocks : List (List Instr)) (b : BlockId) :
    (predsOf blocks b).Pairwise (· ≤ ·) := by
  refine List.pairwise_flatMap.mpr ⟨?_, ?_⟩
  · rintro ⟨is, i⟩ -
    rw [List.pairwise_map]
    exact List.pairwise_of_forall fun _ _ => Nat.le_refl i
  · have hsorted : (blocks.zipIdx.map Prod.snd).Pairwise (· < ·) := by
      rw [List.zipIdx_map_snd]
      exact List.pairwise_lt_range'
    refine (List.pairwise_map.mp hsorted).imp fun {x y} hxy i hi j hj => ?_
    obtain ⟨-, -, rfl⟩ := List.mem_map.mp hi
    obtain ⟨-, -, rfl⟩ := List.mem_map.mp hj
    exact Nat.le_of_lt hxy

/-- The recorded edges are those of the terminators: the successors of a block are the targets of
its last instruction, and a block stands among the predecessors of another as often as that
stands among its successors, in increasing order. -/
structure Function.EdgesDerived (f : Function) : Prop where
  succs : ∀ b ∈ f.blocks, b.succs = b.targets
  count : ∀ a b A B, f.block? a = some A → f.block? b = some B →
    B.preds.count a = A.succs.count b
  sorted : ∀ b ∈ f.blocks, b.preds.Pairwise (· ≤ ·)
  preds : ∀ b ∈ f.blocks, ∀ a ∈ b.preds, ∃ A, f.block? a = some A

theorem BodyDraft.edgesDerived_finish (d : BodyDraft) : d.finish.EdgesDerived := by
  have hblock : ∀ b ∈ d.finish.blocks, ∃ k is, d.blocks[k]? = some is ∧
      b = ⟨k, is, predsOf d.blocks k, targetsOf is⟩ := by
    intro b hb
    obtain ⟨k, hk⟩ := Function.exists_block?_of_mem hb
    rw [block?_finish] at hk
    obtain ⟨is, his, rfl⟩ := Option.map_eq_some_iff.mp hk
    exact ⟨k, is, his, rfl⟩
  refine ⟨?_, ?_, ?_, ?_⟩
  · intro b hb
    obtain ⟨k, is, -, rfl⟩ := hblock b hb
    rfl
  · intro a b A B hA hB
    rw [block?_finish] at hA hB
    obtain ⟨is, his, rfl⟩ := Option.map_eq_some_iff.mp hA
    obtain ⟨js, -, rfl⟩ := Option.map_eq_some_iff.mp hB
    rw [count_predsOf, his]
    rfl
  · intro b hb
    obtain ⟨k, is, -, rfl⟩ := hblock b hb
    exact pairwise_predsOf d.blocks k
  · intro b hb a ha
    obtain ⟨k, is, -, rfl⟩ := hblock b hb
    -- a number without a block leads nowhere
    have hpos : 0 < ((d.blocks[a]?.map targetsOf).getD []).count k := by
      rw [← count_predsOf]
      exact List.count_pos_iff.mpr ha
    rw [block?_finish]
    cases his : d.blocks[a]? with
    | none =>
        rw [his] at hpos
        cases hpos
    | some js => exact ⟨_, rfl⟩

/-! ## What verification finds in a finished body -/

/-- What the draft of a function is responsible for. -/
structure Function.Drafted (f : Function) : Prop extends f.EdgesDerived where
  entry : ∃ b, f.block? f.entry = some b
  numbered : ∀ k b, f.block? k = some b → b.id = k
  definitions_nodup : f.definitions.Nodup
  definitions_lt : ∀ v ∈ f.definitions, v < f.valueCount

theorem BodyDraft.definitions_finish (d : BodyDraft) :
    d.finish.definitions = List.range d.params.length ++ destsOf d.blocks := by
  have hinstrs : d.finish.blocks.map Block.instrs = d.blocks := by
    simp only [finish, List.map_map]
    exact List.zipIdx_map_fst 0 d.blocks
  unfold Function.definitions destsOf
  conv_rhs => rw [← hinstrs, List.flatMap_map]
  rfl

theorem BodyDraft.Fresh.drafted {d : BodyDraft} (h : d.Fresh) : d.finish.Drafted := by
  refine ⟨d.edgesDerived_finish, ?_, ?_, ?_, ?_⟩
  · obtain ⟨is, rest, hblocks⟩ := List.exists_cons_of_ne_nil h.blocks
    have hfirst : d.blocks[0]? = some is := by rw [hblocks]; rfl
    refine ⟨⟨0, is, predsOf d.blocks 0, targetsOf is⟩, (d.block?_finish 0).trans ?_⟩
    rw [hfirst]
    rfl
  · intro k b hb
    rw [block?_finish] at hb
    obtain ⟨is, -, rfl⟩ := Option.map_eq_some_iff.mp hb
    rfl
  · rw [definitions_finish]
    refine List.nodup_append.mpr ⟨List.nodup_range, h.nodup, ?_⟩
    rintro v hv w hw rfl
    exact absurd (List.mem_range.mp hv) (Nat.not_lt_of_le (h.range v hw).1)
  · intro v hv
    rw [definitions_finish] at hv
    rcases List.mem_append.mp hv with hparam | hdest
    · exact Nat.lt_of_lt_of_le (List.mem_range.mp hparam) h.params
    · exact (h.range v hdest).2

/-- An instruction of the function uses the value `v`, which is none of its values. -/
def Function.UsesBeyond (f : Function) (v : ValueId) : Prop :=
  f.valueCount ≤ v ∧ ∃ b ∈ f.blocks, ∃ i ∈ b.instrs, i.op.Uses (.value v)

/-- The defects that a drafted function can have: not in what the draft is responsible for, and
a value out of range only as an operand. -/
def Defect.OfDrafted (f : Function) : Defect → Prop
  | missingEntry _ _ | misnumbered _ _ _ | edgeMismatch _ _ | redefined _ _ => False
  | valueOutOfRange name v count => name = f.name ∧ count = f.valueCount ∧ f.UsesBeyond v
  | _ => True

theorem Function.Drafted.blockDefect? {f : Function} (h : f.Drafted) {d : Defect}
    (hd : f.blocks.zipIdx.findSome? (fun b => f.blockDefect? b.1 b.2) = some d) :
    d.OfDrafted f := by
  obtain ⟨⟨b, k⟩, hb, hd⟩ := List.exists_of_findSome?_eq_some hd
  have hid : b.id = k := h.numbered k b (List.mk_mem_zipIdx_iff_getElem?.mp hb)
  simp only [Function.blockDefect?, hid, ne_eq, not_true_eq_false, if_false] at hd
  split at hd
  · cases hd
    trivial
  · obtain ⟨j, -, rfl⟩ := Option.map_eq_some_iff.mp hd
    trivial

/-- When all targets of a block exist, its recorded edges are in order. -/
theorem Function.Drafted.edgeDefect?_eq_none {f : Function} (h : f.Drafted) {b : Block}
    (hb : b ∈ f.blocks) (ht : ∀ t ∈ b.targets, ∃ b', f.block? t = some b') :
    f.edgeDefect? b = none := by
  obtain ⟨k, hk⟩ := f.exists_block?_of_mem hb
  have hid : b.id = k := h.numbered k b hk
  refine edgeDefect?_eq_none_iff.mpr ⟨ht, (h.succs b hb).symm, ?_, ?_⟩
  · intro a ha
    obtain ⟨A, hA⟩ := h.preds b hb a ha
    refine ⟨A, hA, ?_⟩
    rw [hid, ← List.count_pos_iff, ← h.count a k A b hA hk]
    exact List.count_pos_iff.mpr ha
  · intro t hmem
    obtain ⟨B, hB⟩ := ht t (h.succs b hb ▸ hmem)
    refine ⟨B, hB, ?_⟩
    rw [hid, ← List.count_pos_iff, h.count k t b B hk hB]
    exact List.count_pos_iff.mpr hmem

theorem Function.Drafted.edgeDefect? {f : Function} (h : f.Drafted) {d : Defect}
    (hd : f.blocks.findSome? f.edgeDefect? = some d) : d.OfDrafted f := by
  obtain ⟨b, hb, hd⟩ := List.exists_of_findSome?_eq_some hd
  cases hfind : b.targets.find? fun t => (f.block? t).isNone with
  | none =>
      have ht : ∀ t ∈ b.targets, ∃ b', f.block? t = some b' := by
        intro t hmem
        have hsome := List.find?_eq_none.mp hfind t hmem
        exact Option.ne_none_iff_exists'.mp (by simpa using hsome)
      rw [h.edgeDefect?_eq_none hb ht] at hd
      cases hd
  | some t =>
      simp only [Function.edgeDefect?, hfind, Option.map_some, Option.orElse_eq_orElse,
        Option.orElse_some, Option.some.injEq] at hd
      rw [← hd]
      trivial

/-- The pass over the instructions of a function, for any values `defined` before: when the
defined values are new and in range, a value out of range is an operand. -/
theorem Program.instrsDefect?_of_fresh {p : Program} {f : Function} {defined : List ValueId}
    {l : List (Block × Instr)} {d : Defect}
    (hl : ∀ bi ∈ l, bi.1 ∈ f.blocks ∧ bi.2 ∈ bi.1.instrs)
    (hnodup : (l.filterMap (·.2.dest)).Nodup)
    (hnew : ∀ v ∈ l.filterMap (·.2.dest), v < f.valueCount ∧ v ∉ defined)
    (hd : p.instrsDefect? f defined l = some d) : d.OfDrafted f := by
  induction l generalizing defined with
  | nil => cases hd
  | cons bi rest ih =>
      obtain ⟨b, i⟩ := bi
      obtain ⟨hb, hi⟩ := hl (b, i) List.mem_cons_self
      have hdest : f.destDefect? defined i.dest = none := by
        refine Function.destDefect?_eq_none_iff.mpr fun v hv => hnew v ?_
        simp [hv]
      simp only [instrsDefect?, hdest, Option.orElse_eq_orElse, Option.orElse_eq_or,
        Option.none_or, Option.or_eq_some_iff] at hd
      rcases hd with hoperand | ⟨-, hoperation | ⟨-, hrest⟩⟩
      · obtain ⟨x, hx, hdefect⟩ := List.exists_of_findSome?_eq_some hoperand
        have huses : i.op.Uses x := Operation.mem_operands_iff.mp hx
        cases x with
        | value v =>
            simp only [operandDefect?] at hdefect
            split at hdefect
            · rename_i hle
              cases hdefect
              exact ⟨rfl, rfl, hle, b, hb, i, hi, huses⟩
            · cases hdefect
        | constant k => cases hdefect
        | global g =>
            simp only [operandDefect?] at hdefect
            split at hdefect <;> cases hdefect
            trivial
      · cases hop : i.op with
        | phi edges =>
            rw [hop] at hoperation
            obtain ⟨e, -, rfl⟩ := Option.map_eq_some_iff.mp hoperation
            trivial
        | call callee args =>
            rw [hop] at hoperation
            cases callee with
            | builtin name => cases hoperation
            | function id =>
                simp only [operationDefect?, callDefect?] at hoperation
                split at hoperation
                · cases hoperation
                  trivial
                · split at hoperation <;> cases hoperation
                  trivial
        | _ =>
            rw [hop] at hoperation
            cases hoperation
      · -- what the instruction defines is not defined again by the rest
        have hl' : ∀ bi ∈ rest, bi.1 ∈ f.blocks ∧ bi.2 ∈ bi.1.instrs :=
          fun bi hbi => hl bi (List.mem_cons_of_mem _ hbi)
        cases hi' : i.dest with
        | none =>
            have hcons : ((b, i) :: rest).filterMap (·.2.dest) = rest.filterMap (·.2.dest) := by
              simp [hi']
            rw [hcons] at hnodup hnew
            rw [hi'] at hrest
            exact ih hl' hnodup hnew hrest
        | some w =>
            have hcons : ((b, i) :: rest).filterMap (·.2.dest) =
                w :: rest.filterMap (·.2.dest) := by
              simp [hi']
            rw [hcons] at hnodup hnew
            rw [hi'] at hrest
            obtain ⟨hw, hnodup'⟩ := List.nodup_cons.mp hnodup
            refine ih hl' hnodup' (fun v hv => ?_) hrest
            obtain ⟨hlt, hnot⟩ := hnew v (List.mem_cons_of_mem _ hv)
            have hne : v ≠ w := fun heq => hw (heq ▸ hv)
            exact ⟨hlt, by simp [hne, hnot]⟩

/-- **Verification finds in a drafted function no defect that the draft is responsible for.** -/
theorem Program.functionDefect?_of_drafted {p : Program} {f : Function} (h : f.Drafted)
    {d : Defect} (hd : p.functionDefect? f = some d) : d.OfDrafted f := by
  obtain ⟨hparams, hnodup, hnew⟩ :=
    f.definitions_iff.mp ⟨h.definitions_nodup, h.definitions_lt⟩
  simp only [functionDefect?, Function.entryDefect?_eq_none_iff.mpr h.entry,
    Function.paramDefect?_eq_none_iff.mpr hparams, Option.orElse_eq_orElse, Option.orElse_eq_or,
    Option.none_or, Option.or_eq_some_iff] at hd
  rcases hd with hblocks | ⟨-, hedges | ⟨-, hinstrs⟩⟩
  · exact h.blockDefect? hblocks
  · exact h.edgeDefect? hedges
  · refine instrsDefect?_of_fresh ?_ hnodup hnew hinstrs
    rintro ⟨b, i⟩ hbi
    exact f.mem_instrs_iff.mp hbi

/-! ## Programs -/

/-- Every function that was put into its place has no body or was finished from a draft. -/
def ProgramDraft.Sound (d : ProgramDraft) : Prop :=
  ∀ f, .defined f ∈ d.slots → f.isExternal = true ∨ ∃ b : BodyDraft, b.Fresh ∧ f = b.finish

/-- Everything in the workshop is sound. -/
structure Workshop.Sound (w : Workshop) : Prop where
  bodies : ∀ d ∈ w.bodies, d.Fresh
  program : w.program.Sound

theorem ProgramDraft.fresh_body (d : ProgramDraft) (id : FunctionId) : (d.body id).Fresh := by
  unfold body
  split <;> exact BodyDraft.fresh_start _ _ _

/-- A new place keeps the draft of a program sound if it is not filled by a body of another
origin. -/
theorem ProgramDraft.Sound.addSlot {d : ProgramDraft} (h : d.Sound) (s : FunctionSlot)
    (hs : ∀ f, s = .defined f → f.isExternal = true) : ((addSlot s).run d).2.Sound := by
  intro f hf
  rcases List.mem_append.mp hf with hmem | hnew
  · exact h f hmem
  · exact .inl (hs f (List.mem_singleton.mp hnew).symm)

theorem ProgramDraft.Sound.define {d : ProgramDraft} (h : d.Sound) {b : BodyDraft}
    (hb : b.Fresh) : ((define b).run d).2.Sound := by
  intro f hf
  rcases List.mem_or_eq_of_mem_set hf with hmem | heq
  · exact h f hmem
  · cases heq
    exact .inr ⟨b, hb, rfl⟩

/-- The step lemma: every call keeps the workshop sound. -/
theorem Workshop.Sound.apply {w : Workshop} (h : w.Sound) (c : Call) : (w.apply c).Sound := by
  cases c with
  | global name ty => exact ⟨h.bodies, h.program⟩
  | declare name params =>
      exact ⟨h.bodies, h.program.addSlot _ fun f hf => by cases hf⟩
  | external name params =>
      refine ⟨h.bodies, h.program.addSlot _ fun f hf => ?_⟩
      cases hf
      rfl
  | body id =>
      refine ⟨fun d hd => ?_, h.program⟩
      rcases List.mem_append.mp hd with hmem | hnew
      · exact h.bodies d hmem
      · rw [List.mem_singleton.mp hnew]
        exact w.program.fresh_body id
  | edit k c =>
      refine ⟨fun d hd => ?_, h.program⟩
      obtain ⟨j, hj⟩ := List.mem_iff_getElem?.mp hd
      simp only [Workshop.apply, List.getElem?_modify] at hj
      obtain ⟨d', hd', rfl⟩ := Option.map_eq_some_iff.mp hj
      have hfresh := h.bodies d' (List.mem_of_getElem? hd')
      split
      · exact hfresh.apply c
      · exact hfresh
  | define k =>
      simp only [Workshop.apply]
      split
      · rename_i d hd
        exact ⟨h.bodies, h.program.define (h.bodies d (List.mem_of_getElem? hd))⟩
      · exact h

/-- **Whatever calls are made, the workshop is sound.** -/
theorem Workshop.sound_applyAll (cs : List Call) : (empty.applyAll cs).Sound := by
  have hrun : ∀ (cs : List Call) (w : Workshop), w.Sound → (w.applyAll cs).Sound := by
    intro cs
    induction cs with
    | nil => exact fun w hw => hw
    | cons c cs ih => exact fun w hw => ih _ (hw.apply c)
  refine hrun cs empty ⟨fun d hd => ?_, fun f hf => ?_⟩
  · cases hd
  · cases hf

theorem ProgramDraft.mem_of_functions {slots : List FunctionSlot} {fs : List Function}
    (h : functions slots = .ok fs) {f : Function} (hf : f ∈ fs) : .defined f ∈ slots := by
  induction slots generalizing fs with
  | nil =>
      cases h
      cases hf
  | cons s slots ih =>
      cases s with
      | declared name params => cases h
      | defined g =>
          cases hrest : functions slots with
          | error e => simp [functions, hrest, Except.map] at h
          | ok gs =>
              simp only [functions, hrest, Except.map, Except.ok.injEq] at h
              rw [← h] at hf
              rcases List.mem_cons.mp hf with rfl | hmem
              · exact List.mem_cons_self
              · exact List.mem_cons_of_mem _ (ih hrest hmem)

theorem ProgramDraft.functions_eq_error {slots : List FunctionSlot} {e : Defect}
    (h : functions slots = .error e) : ∃ name, e = .undefined name := by
  induction slots with
  | nil => cases h
  | cons s slots ih =>
      cases s with
      | declared name params =>
          cases h
          exact ⟨name, rfl⟩
      | defined f =>
          cases hrest : functions slots with
          | error e' =>
              simp only [functions, hrest, Except.map, Except.error.injEq] at h
              exact ih (h ▸ hrest)
          | ok gs => simp [functions, hrest, Except.map] at h

/-- A sound draft is refused because of a function that was not defined, because of a name that
is declared twice, or because of a defect of a drafted function. -/
theorem ProgramDraft.Sound.finish_eq_error {d : ProgramDraft} (h : d.Sound) {e : Defect}
    (he : d.finish = .error e) :
    (∃ name, e = .undefined name) ∨ (∃ name, e = .duplicateGlobal name) ∨
      (∃ name, e = .duplicateFunction name) ∨
      ∃ f, .defined f ∈ d.slots ∧ f.Drafted ∧ e.OfDrafted f := by
  unfold finish at he
  split at he
  · rename_i e' hfuns
    cases he
    exact .inl (functions_eq_error hfuns)
  · rename_i fs hfuns
    have hdefect : (⟨d.globals, fs⟩ : Program).defect? = some e := by
      simp only [Program.verify] at he
      cases hd : (⟨d.globals, fs⟩ : Program).defect? with
      | none => simp [hd] at he
      | some e' =>
          simp only [hd, Except.error.injEq] at he
          rw [he]
    simp only [Program.defect?, Option.orElse_eq_orElse, Option.orElse_eq_or,
      Option.or_eq_some_iff] at hdefect
    rcases hdefect with hglobal | ⟨-, hfunction | ⟨-, hbody⟩⟩
    · obtain ⟨name, -, rfl⟩ := Option.map_eq_some_iff.mp hglobal
      exact .inr (.inl ⟨name, rfl⟩)
    · obtain ⟨name, -, rfl⟩ := Option.map_eq_some_iff.mp hfunction
      exact .inr (.inr (.inl ⟨name, rfl⟩))
    · obtain ⟨f, hf, hd⟩ := List.exists_of_findSome?_eq_some hbody
      obtain ⟨hmem, hbody⟩ := List.mem_filter.mp hf
      have hslot := mem_of_functions hfuns hmem
      rcases h f hslot with hext | ⟨b, hb, rfl⟩
      · simp [hext] at hbody
      · exact .inr (.inr (.inr
          ⟨_, hslot, hb.drafted, Program.functionDefect?_of_drafted hb.drafted hd⟩))

/-- **Drafting and verification agree.** Whatever calls are made, in any order and with any
numbers, every body can be finished to a function whose recorded edges are those of its
terminators; and if the program is refused, then not because of an entry, a block number, a
recorded edge or a value defined twice, and because of a value out of range only if an instruction
uses that value, while all values that are defined are in range. -/
theorem Workshop.drafts_agree_with_verification (cs : List Call) :
    (∀ d ∈ (empty.applyAll cs).bodies, d.finish.EdgesDerived) ∧
      ∀ e, (empty.applyAll cs).program.finish = .error e →
        (∀ name entry, e ≠ .missingEntry name entry) ∧
        (∀ name k b, e ≠ .misnumbered name k b) ∧
        (∀ name b, e ≠ .edgeMismatch name b) ∧
        (∀ name v, e ≠ .redefined name v) ∧
        ∀ name v count, e = .valueOutOfRange name v count →
          ∃ f, .defined f ∈ (empty.applyAll cs).program.slots ∧ f.name = name ∧
            f.valueCount = count ∧ f.UsesBeyond v ∧ ∀ w ∈ f.definitions, w < count := by
  refine ⟨fun d _ => d.edgesDerived_finish, fun e he => ?_⟩
  rcases (sound_applyAll cs).program.finish_eq_error he with
    ⟨name, rfl⟩ | ⟨name, rfl⟩ | ⟨name, rfl⟩ | ⟨f, hslot, hdrafted, hdefect⟩
  · simp
  · simp
  · simp
  · refine ⟨?_, ?_, ?_, ?_, ?_⟩
    · rintro name entry rfl
      exact hdefect
    · rintro name k b rfl
      exact hdefect
    · rintro name b rfl
      exact hdefect
    · rintro name v rfl
      exact hdefect
    · rintro name v count rfl
      obtain ⟨hname, hcount, huses⟩ := hdefect
      exact ⟨f, hslot, hname.symm, hcount.symm, huses, hcount ▸ hdrafted.definitions_lt⟩

/-- Calls that lose an instruction, with its value, to a block that does not exist, and use a value
of another function. -/
def Workshop.strayOperand : List Workshop.Call :=
  [.declare "main" [⟨"n", .int .int⟩], .body 0,
   .edit 0 (.switchTo 7), .edit 0 (.unary .neg (.value 0)),
   .edit 0 (.switchTo 0), .edit 0 (.unary .neg (.value 9)),
   .edit 0 (.branch (.value 2) 0 0), .define 0]

theorem Workshop.drafts_agree_with_verification_strayOperand :
    (empty.applyAll strayOperand).program.finish = .error (.valueOutOfRange "main" 9 3) ∧
      ∃ f, .defined f ∈ (empty.applyAll strayOperand).program.slots ∧ f.name = "main" ∧
        f.valueCount = 3 ∧ f.UsesBeyond 9 ∧ ∀ w ∈ f.definitions, w < 3 := by
  have hrefused : (empty.applyAll strayOperand).program.finish =
      .error (.valueOutOfRange "main" 9 3) := rfl
  exact ⟨hrefused,
    ((drafts_agree_with_verification strayOperand).2 _ hrefused).2.2.2.2 "main" 9 3 rfl⟩

end SsaMachine
