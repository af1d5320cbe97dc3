import SsaMachine.Program.Verify
import Mathlib.Data.List.Nodup

set_option autoImplicit false

/-! # Well-formed programs

`Program.verify` searches for the first defect, in three passes over each function. This file
says what a program without defects is, in terms that mention neither the passes nor their
order, and shows that the search finds nothing exactly when the program is so:

```
Program.defect?_eq_none_iff :  p.defect? = none ↔ p.WellFormed
```

## How the two sides meet

* Each single check has a lemma `..._eq_none_iff` that says what its silence means. The checks
  are joined by `<|>` and `findSome?`, so the silence of the whole is the conjunction of these.
* The check of the edges of one block looks at the recorded edges of its neighbours, which
  may not have been checked yet. Only all blocks together give the relation between
  predecessors and successors, and only when the blocks carry their own numbers
  (`Function.edges_iff`).
* The check of the definitions carries the values defined so far. Its silence says that what
  follows is new and without repetition (`Program.instrsDefect?_eq_none_iff`).
-/

namespace SsaMachine

/-! ## The declarative side -/

/-- The operands that an operation uses, one rule for each place where one can stand. -/
inductive Operation.Uses : Operation → Operand → Prop
  | storeAddr (a v : Operand) : Uses (.store a v) a
  | storeValue (a v : Operand) : Uses (.store a v) v
  | unary (op : UnaryOp) (x : Operand) : Uses (.unary op x) x
  | binaryLeft (op : BinaryOp) (x y : Operand) : Uses (.binary op x y) x
  | binaryRight (op : BinaryOp) (x y : Operand) : Uses (.binary op x y) y
  | callArg (callee : Callee) {args : List Operand} {x : Operand} (h : x ∈ args) :
      Uses (.call callee args) x
  | convert (ty : Ty) (x : Operand) : Uses (.convert ty x) x
  | phiEdge {edges : List PhiEdge} {e : PhiEdge} (h : e ∈ edges) : Uses (.phi edges) e.operand
  | retResult {results : List Operand} {x : Operand} (h : x ∈ results) : Uses (.ret results) x
  | branchCond (x : Operand) (onTrue onFalse : BlockId) : Uses (.branch x onTrue onFalse) x

/-- The last instruction of the block is a terminator, and no other instruction is one. -/
def Block.EndsOnce (b : Block) : Prop :=
  ∃ body last, b.instrs = body ++ [last] ∧ last.op.isTerminator = true ∧
    ∀ i ∈ body, i.op.isTerminator = false

/-- The values that a function defines, as often as it defines them: its parameters, and the
results of its instructions. -/
def Function.definitions (f : Function) : List ValueId :=
  List.range f.params.length ++ f.blocks.flatMap fun b => b.instrs.filterMap Instr.dest

/-- What is required of the control-flow graph of a function with a body. -/
structure Function.GraphWellFormed (f : Function) : Prop where
  entry : ∃ b, f.block? f.entry = some b
  numbered : ∀ k b, f.block? k = some b → b.id = k
  endsOnce : ∀ b ∈ f.blocks, b.EndsOnce
  targets : ∀ b ∈ f.blocks, ∀ t ∈ b.targets, ∃ b', f.block? t = some b'
  succs : ∀ b ∈ f.blocks, b.succs = b.targets
  preds : ∀ b ∈ f.blocks, ∀ a, a ∈ b.preds ↔ ∃ b', f.block? a = some b' ∧ b.id ∈ b'.succs

/-- What is required of an instruction of the block `b`, apart from the value it defines. -/
structure Program.InstrWellFormed (p : Program) (f : Function) (b : Block) (i : Instr) :
    Prop where
  edges : ∀ edges, i.op = .phi edges → ∀ e ∈ edges, e.pred ∈ b.preds
  values : ∀ v, i.op.Uses (.value v) → v < f.valueCount
  globals : ∀ g, i.op.Uses (.global g) → ∃ x, p.global? g = some x
  calls : ∀ id args, i.op = .call (.function id) args →
    ∃ callee, p.function? id = some callee ∧
      (callee.isExternal = false → args.length = callee.params.length)

/-- What is required of a function with a body. -/
structure Program.BodyWellFormed (p : Program) (f : Function) : Prop
    extends f.GraphWellFormed where
  instrs : ∀ b ∈ f.blocks, ∀ i ∈ b.instrs, p.InstrWellFormed f b i
  definitions_nodup : f.definitions.Nodup
  definitions_lt : ∀ v ∈ f.definitions, v < f.valueCount

/-- What is required of a program. Functions without a body are only asked for their names. -/
structure Program.WellFormed (p : Program) : Prop where
  globals_nodup : (p.globals.map Global.name).Nodup
  functions_nodup : (p.functions.map Function.name).Nodup
  bodies : ∀ f ∈ p.functions, f.isExternal = false → p.BodyWellFormed f

/-! ## Operands and names -/

/-- The list of operands holds what the operation uses, and nothing else. -/
theorem Operation.mem_operands_iff {op : Operation} {x : Operand} :
    x ∈ op.operands ↔ op.Uses x := by
  constructor
  · intro h
    cases op with
    | store a v =>
        simp only [operands, List.mem_cons, List.not_mem_nil, or_false] at h
        rcases h with rfl | rfl
        · exact .storeAddr _ _
        · exact .storeValue _ _
    | unary o y =>
        rw [List.mem_singleton.mp h]
        exact .unary _ _
    | binary o y z =>
        simp only [operands, List.mem_cons, List.not_mem_nil, or_false] at h
        rcases h with rfl | rfl
        · exact .binaryLeft _ _ _
        · exact .binaryRight _ _ _
    | call callee args => exact .callArg _ h
    | convert ty y =>
        rw [List.mem_singleton.mp h]
        exact .convert _ _
    | phi edges =>
        obtain ⟨e, he, rfl⟩ := List.mem_map.mp h
        exact .phiEdge he
    | ret results => exact .retResult h
    | branch y onTrue onFalse =>
        rw [List.mem_singleton.mp h]
        exact .branchCond _ _ _
    | jump target => cases h
  · intro h
    cases h with
    | phiEdge he => exact List.mem_map.mpr ⟨_, he, rfl⟩
    | callArg _ hx => exact hx
    | retResult hx => exact hx
    | _ => simp [operands]

theorem firstRepeated?_eq_none_iff {seen ns : List String} :
    firstRepeated? seen ns = none ↔ ns.Nodup ∧ ∀ n ∈ ns, n ∉ seen := by
  induction ns generalizing seen with
  | nil => simp [firstRepeated?]
  | cons n ns ih =>
      by_cases hn : n ∈ seen
      · simp [firstRepeated?, hn]
      · simp only [firstRepeated?, List.contains_iff_mem, hn, if_false, ih, List.mem_cons,
          List.nodup_cons, not_or]
        constructor
        · rintro ⟨hnd, hns⟩
          refine ⟨⟨fun h => (hns n h).1 rfl, hnd⟩, ?_⟩
          rintro m (rfl | hm)
          · exact hn
          · exact (hns m hm).2
        · rintro ⟨⟨hnot, hnd⟩, hseen⟩
          refine ⟨hnd, fun m hm => ⟨?_, hseen m (.inr hm)⟩⟩
          rintro rfl
          exact hnot hm

/-! ## Blocks and edges -/

theorem Function.mem_blocks_of_block? {f : Function} {k : BlockId} {b : Block}
    (h : f.block? k = some b) : b ∈ f.blocks :=
  List.mem_of_getElem? h

theorem Function.exists_block?_of_mem {f : Function} {b : Block} (h : b ∈ f.blocks) :
    ∃ k, f.block? k = some b :=
  List.mem_iff_getElem?.mp h

theorem Function.entryDefect?_eq_none_iff {f : Function} :
    f.entryDefect? = none ↔ ∃ b, f.block? f.entry = some b := by
  unfold entryDefect?
  cases h : f.block? f.entry <;> simp

/-- A block ends once exactly when its last instruction is a terminator and none is found among
the others. -/
theorem Block.endsOnce_iff {b : Block} :
    b.EndsOnce ↔ (b.instrs.getLast?.any fun i => i.op.isTerminator) = true ∧
      ∀ i ∈ b.instrs.dropLast, i.op.isTerminator = false := by
  constructor
  · rintro ⟨body, last, hb, hlast, hbody⟩
    rw [hb, List.getLast?_concat, List.dropLast_concat]
    exact ⟨hlast, hbody⟩
  · rintro ⟨hlast, hbody⟩
    obtain ⟨last, hget, hterm⟩ := (Option.any_eq_true _ _).mp hlast
    obtain ⟨body, hb⟩ := List.getLast?_eq_some_iff.mp hget
    rw [hb, List.dropLast_concat] at hbody
    exact ⟨body, last, hb, hterm, hbody⟩

theorem Function.blockDefect?_eq_none_iff {f : Function} {b : Block} {k : Nat} :
    f.blockDefect? b k = none ↔ b.id = k ∧ b.EndsOnce := by
  rw [Block.endsOnce_iff]
  unfold blockDefect?
  by_cases hid : b.id = k
  · by_cases hlast : (b.instrs.getLast?.any fun i => i.op.isTerminator) = true
    · simp [hid, hlast]
    · simp [hid, hlast]
  · simp [hid]

/-- The pass over the shapes of the blocks: each is numbered by its position and ends once. -/
theorem Function.blocksDefect?_eq_none_iff {f : Function} :
    f.blocks.zipIdx.findSome? (fun b => f.blockDefect? b.1 b.2) = none ↔
      (∀ k b, f.block? k = some b → b.id = k) ∧ ∀ b ∈ f.blocks, b.EndsOnce := by
  simp only [List.findSome?_eq_none_iff, blockDefect?_eq_none_iff]
  constructor
  · intro h
    refine ⟨fun k b hb => (h (b, k) (List.mk_mem_zipIdx_iff_getElem?.mpr hb)).1, fun b hb => ?_⟩
    obtain ⟨k, hk⟩ := f.exists_block?_of_mem hb
    exact (h (b, k) (List.mk_mem_zipIdx_iff_getElem?.mpr hk)).2
  · rintro ⟨hid, hends⟩ ⟨b, k⟩ hb
    have hk : f.block? k = some b := List.mk_mem_zipIdx_iff_getElem?.mp hb
    exact ⟨hid k b hk, hends b (f.mem_blocks_of_block? hk)⟩

theorem Function.leadsTo_iff {f : Function} {a b : BlockId} :
    f.leadsTo a b = true ↔ ∃ block, f.block? a = some block ∧ b ∈ block.succs := by
  simp [leadsTo, Option.any_eq_true]

theorem Function.comesFrom_iff {f : Function} {b a : BlockId} :
    f.comesFrom b a = true ↔ ∃ block, f.block? b = some block ∧ a ∈ block.preds := by
  simp [comesFrom, Option.any_eq_true]

theorem Function.edgeDefect?_eq_none_iff {f : Function} {b : Block} :
    f.edgeDefect? b = none ↔
      (∀ t ∈ b.targets, ∃ b', f.block? t = some b') ∧ b.targets = b.succs ∧
        (∀ a ∈ b.preds, ∃ b', f.block? a = some b' ∧ b.id ∈ b'.succs) ∧
        ∀ t ∈ b.succs, ∃ b', f.block? t = some b' ∧ b.id ∈ b'.preds := by
  unfold edgeDefect?
  simp [← Option.ne_none_iff_exists', leadsTo_iff, comesFrom_iff]

/-- The pass over the edges. One block's check sees one half of the relation between
predecessors and successors, namely that its own record is answered by its neighbours'. The
other half for the block `b` is in the check of the block that leads to it, which names `b` by
its number: this is where the numbering is needed. -/
theorem Function.edges_iff {f : Function} (hid : ∀ k b, f.block? k = some b → b.id = k) :
    f.blocks.findSome? f.edgeDefect? = none ↔
      (∀ b ∈ f.blocks, ∀ t ∈ b.targets, ∃ b', f.block? t = some b') ∧
      (∀ b ∈ f.blocks, b.succs = b.targets) ∧
      ∀ b ∈ f.blocks, ∀ a, a ∈ b.preds ↔ ∃ b', f.block? a = some b' ∧ b.id ∈ b'.succs := by
  simp only [List.findSome?_eq_none_iff, edgeDefect?_eq_none_iff]
  constructor
  · intro h
    refine ⟨fun b hb => (h b hb).1, fun b hb => (h b hb).2.1.symm, fun b hb a => ⟨?_, ?_⟩⟩
    · exact (h b hb).2.2.1 a
    · rintro ⟨b', hb', hmem⟩
      obtain ⟨k, hk⟩ := f.exists_block?_of_mem hb
      -- the check of `b'` finds a block by the number of `b`, which has to be `b` itself
      obtain ⟨b'', hb'', hpred⟩ := (h b' (f.mem_blocks_of_block? hb')).2.2.2 _ hmem
      rw [hid k b hk, hk] at hb''
      cases hb''
      rwa [hid a b' hb'] at hpred
  · rintro ⟨htargets, hsuccs, hpreds⟩ b hb
    refine ⟨htargets b hb, (hsuccs b hb).symm, fun a ha => (hpreds b hb a).mp ha, ?_⟩
    intro t ht
    obtain ⟨b', hb'⟩ := htargets b hb t (hsuccs b hb ▸ ht)
    obtain ⟨k, hk⟩ := f.exists_block?_of_mem hb
    -- read the relation at the successor, with `b` in the place of the predecessor
    have hpred := (hpreds b' (f.mem_blocks_of_block? hb') k).mpr
      ⟨b, hk, by rwa [hid t b' hb']⟩
    exact ⟨b', hb', by rwa [hid k b hk]⟩

/-- The three passes over the control-flow graph find nothing exactly when it is well formed. -/
theorem Function.graphWellFormed_iff {f : Function} :
    f.GraphWellFormed ↔ f.entryDefect? = none ∧
      f.blocks.zipIdx.findSome? (fun b => f.blockDefect? b.1 b.2) = none ∧
      f.blocks.findSome? f.edgeDefect? = none := by
  rw [entryDefect?_eq_none_iff, blocksDefect?_eq_none_iff]
  constructor
  · rintro ⟨hentry, hid, hends, htargets, hsuccs, hpreds⟩
    exact ⟨hentry, ⟨hid, hends⟩, (edges_iff hid).mpr ⟨htargets, hsuccs, hpreds⟩⟩
  · rintro ⟨hentry, ⟨hid, hends⟩, hedges⟩
    obtain ⟨htargets, hsuccs, hpreds⟩ := (edges_iff hid).mp hedges
    exact ⟨hentry, hid, hends, htargets, hsuccs, hpreds⟩

/-! ## Values, globals and calls -/

theorem Program.operandDefect?_eq_none_iff {p : Program} {f : Function} {x : Operand} :
    p.operandDefect? f x = none ↔
      (∀ v, x = .value v → v < f.valueCount) ∧
        ∀ g, x = .global g → ∃ y, p.global? g = some y := by
  cases x with
  | value v => simp [operandDefect?]
  | constant k => simp [operandDefect?]
  | global g => simp [operandDefect?, Option.ne_none_iff_exists']

theorem Program.callDefect?_eq_none_iff {p : Program} {f : Function} {id : FunctionId}
    {n : Nat} :
    p.callDefect? f id n = none ↔
      ∃ callee, p.function? id = some callee ∧
        (callee.isExternal = false → n = callee.params.length) := by
  unfold callDefect?
  cases h : p.function? id with
  | none => simp
  | some callee =>
      cases hx : callee.isExternal with
      | true => simp [hx]
      | false => simp [hx, @eq_comm _ callee.params.length]

/-- The checks of an instruction other than that of its own value. -/
theorem Program.instrWellFormed_iff {p : Program} {f : Function} {b : Block} {i : Instr} :
    p.InstrWellFormed f b i ↔
      i.op.operands.findSome? (p.operandDefect? f) = none ∧
        p.operationDefect? f b i.op = none := by
  have hoperands : i.op.operands.findSome? (p.operandDefect? f) = none ↔
      (∀ v, i.op.Uses (.value v) → v < f.valueCount) ∧
        ∀ g, i.op.Uses (.global g) → ∃ x, p.global? g = some x := by
    simp only [List.findSome?_eq_none_iff, operandDefect?_eq_none_iff,
      Operation.mem_operands_iff]
    constructor
    · intro h
      exact ⟨fun v hv => (h _ hv).1 v rfl, fun g hg => (h _ hg).2 g rfl⟩
    · rintro ⟨hvalues, hglobals⟩ x hx
      refine ⟨fun v hv => hvalues v (hv ▸ hx), fun g hg => hglobals g (hg ▸ hx)⟩
  have hoperation : p.operationDefect? f b i.op = none ↔
      (∀ edges, i.op = .phi edges → ∀ e ∈ edges, e.pred ∈ b.preds) ∧
        ∀ id args, i.op = .call (.function id) args →
          ∃ callee, p.function? id = some callee ∧
            (callee.isExternal = false → args.length = callee.params.length) := by
    cases hop : i.op with
    | phi edges => simp [operationDefect?]
    | call callee args =>
        cases callee with
        | function id => simp [operationDefect?, callDefect?_eq_none_iff]
        | builtin name => simp [operationDefect?]
    | _ => simp [operationDefect?]
  rw [hoperands, hoperation]
  constructor
  · rintro ⟨hedges, hvalues, hglobals, hcalls⟩
    exact ⟨⟨hvalues, hglobals⟩, hedges, hcalls⟩
  · rintro ⟨⟨hvalues, hglobals⟩, hedges, hcalls⟩
    exact ⟨hedges, hvalues, hglobals, hcalls⟩

theorem Function.destDefect?_eq_none_iff {f : Function} {defined : List ValueId}
    {dest : Option ValueId} :
    f.destDefect? defined dest = none ↔ ∀ v, dest = some v → v < f.valueCount ∧ v ∉ defined := by
  cases dest with
  | none => simp [destDefect?]
  | some v =>
      by_cases hv : v < f.valueCount
      · simp [destDefect?, hv, Nat.not_le_of_lt hv]
      · simp [destDefect?, hv, Nat.le_of_not_lt hv]

/-- The pass over the instructions, for any values `defined` before. -/
theorem Program.instrsDefect?_eq_none_iff {p : Program} {f : Function}
    {defined : List ValueId} {l : List (Block × Instr)} :
    p.instrsDefect? f defined l = none ↔
      (∀ bi ∈ l, p.InstrWellFormed f bi.1 bi.2) ∧
      (l.filterMap (·.2.dest)).Nodup ∧
      ∀ v ∈ l.filterMap (·.2.dest), v < f.valueCount ∧ v ∉ defined := by
  induction l generalizing defined with
  | nil => simp [instrsDefect?]
  | cons bi rest ih =>
      obtain ⟨b, i⟩ := bi
      have hcons : p.instrsDefect? f defined ((b, i) :: rest) = none ↔
          (∀ v, i.dest = some v → v < f.valueCount ∧ v ∉ defined) ∧
            p.InstrWellFormed f b i ∧
            p.instrsDefect? f (i.dest.toList ++ defined) rest = none := by
        rw [instrWellFormed_iff, ← Function.destDefect?_eq_none_iff]
        simp [instrsDefect?, and_assoc]
      rw [hcons, ih]
      cases hdest : i.dest with
      | none =>
          simp only [List.forall_mem_cons, List.filterMap_cons, hdest, Option.toList_none,
            List.nil_append, reduceCtorEq, false_implies, implies_true, true_and]
          rw [and_assoc]
      | some w =>
          -- `w` joins the values defined so far: what follows must be new to it, which is the
          -- same as that the list of results does not repeat `w`
          simp only [List.forall_mem_cons, List.filterMap_cons, hdest, Option.toList_some,
            List.singleton_append, List.nodup_cons, Option.some.injEq, forall_eq']
          simp only [List.mem_cons, not_or]
          constructor
          · rintro ⟨hw, hi, hrest, hnd, hnew⟩
            exact ⟨⟨hi, hrest⟩, ⟨fun h => (hnew w h).2.1 rfl, hnd⟩, hw,
              fun v hv => ⟨(hnew v hv).1, (hnew v hv).2.2⟩⟩
          · rintro ⟨⟨hi, hrest⟩, ⟨hfresh, hnd⟩, hw, hnew⟩
            refine ⟨hw, hi, hrest, hnd, fun v hv => ⟨(hnew v hv).1, ?_, (hnew v hv).2⟩⟩
            rintro rfl
            exact hfresh hv

theorem Function.paramDefect?_eq_none_iff {f : Function} :
    f.paramDefect? = none ↔ f.params.length ≤ f.valueCount := by
  simp [paramDefect?]

/-! ## Functions and programs -/

theorem Function.mem_instrs_iff {f : Function} {b : Block} {i : Instr} :
    (b, i) ∈ f.instrs ↔ b ∈ f.blocks ∧ i ∈ b.instrs := by
  simp [instrs]

theorem Function.definitions_eq {f : Function} :
    f.definitions = List.range f.params.length ++ f.instrs.filterMap (·.2.dest) := by
  unfold definitions instrs
  rw [List.filterMap_flatMap]
  simp [List.filterMap_map]

/-- The definitions are in order exactly when the parameters fit and the results of the
instructions are new, within bounds and without repetition. -/
theorem Function.definitions_iff {f : Function} :
    (f.definitions.Nodup ∧ ∀ v ∈ f.definitions, v < f.valueCount) ↔
      f.params.length ≤ f.valueCount ∧
      (f.instrs.filterMap (·.2.dest)).Nodup ∧
      ∀ v ∈ f.instrs.filterMap (·.2.dest),
        v < f.valueCount ∧ v ∉ List.range f.params.length := by
  rw [definitions_eq]
  constructor
  · rintro ⟨hnd, hlt⟩
    obtain ⟨-, hdests, hdisjoint⟩ := List.nodup_append.mp hnd
    refine ⟨?_, hdests, fun v hv => ⟨hlt v (List.mem_append_right _ hv), fun hparam => ?_⟩⟩
    · -- otherwise the value count would itself be the number of a parameter
      refine Nat.le_of_not_lt fun hcon => ?_
      have hmem : f.valueCount ∈ List.range f.params.length := List.mem_range.mpr hcon
      exact Nat.lt_irrefl _ (hlt _ (List.mem_append_left _ hmem))
    · exact hdisjoint v hparam v hv rfl
  · rintro ⟨hparams, hnd, hdests⟩
    constructor
    · refine List.nodup_append.mpr ⟨List.nodup_range, hnd, ?_⟩
      rintro v hv w hw rfl
      exact (hdests v hw).2 hv
    · intro v hv
      rcases List.mem_append.mp hv with hv | hv
      · exact Nat.lt_of_lt_of_le (List.mem_range.mp hv) hparams
      · exact (hdests v hv).1

theorem Program.functionDefect?_eq_none_iff {p : Program} {f : Function} :
    p.functionDefect? f = none ↔ p.BodyWellFormed f := by
  have hsplit : p.functionDefect? f = none ↔
      f.GraphWellFormed ∧ f.paramDefect? = none ∧
        p.instrsDefect? f (List.range f.params.length) f.instrs = none := by
    rw [Function.graphWellFormed_iff]
    simp only [functionDefect?, Option.orElse_eq_orElse, Option.orElse_eq_or,
      Option.or_eq_none_iff, and_assoc]
  rw [hsplit, Function.paramDefect?_eq_none_iff, instrsDefect?_eq_none_iff]
  have hdefs := f.definitions_iff
  constructor
  · rintro ⟨hgraph, hparams, hinstrs, hdests⟩
    obtain ⟨hnd, hlt⟩ := hdefs.mpr ⟨hparams, hdests⟩
    exact ⟨hgraph, fun b hb i hi => hinstrs (b, i) (f.mem_instrs_iff.mpr ⟨hb, hi⟩), hnd, hlt⟩
  · rintro ⟨hgraph, hinstrs, hnd, hlt⟩
    obtain ⟨hparams, hdests⟩ := hdefs.mp ⟨hnd, hlt⟩
    refine ⟨hgraph, hparams, ?_, hdests⟩
    rintro ⟨b, i⟩ hbi
    obtain ⟨hb, hi⟩ := f.mem_instrs_iff.mp hbi
    exact hinstrs b hb i hi

/-- **The search for a defect is exact.** It finds nothing in a well-formed program, and
something in every other. -/
theorem Program.defect?_eq_none_iff {p : Program} : p.defect? = none ↔ p.WellFormed := by
  have hsplit : p.defect? = none ↔
      (p.globals.map Global.name).Nodup ∧ (p.functions.map Function.name).Nodup ∧
        ∀ f ∈ p.functions, f.isExternal = false → p.BodyWellFormed f := by
    simp [defect?, firstRepeated?_eq_none_iff, functionDefect?_eq_none_iff]
  rw [hsplit]
  exact ⟨fun ⟨hg, hf, hb⟩ => ⟨hg, hf, hb⟩, fun h => ⟨h.globals_nodup, h.functions_nodup, h.bodies⟩⟩

theorem Program.verify_eq_ok_iff_defect? {p : Program} : p.verify = .ok () ↔ p.defect? = none := by
  unfold verify
  cases p.defect? <;> simp

theorem Program.wellFormed_of_verify {p : Program} (h : p.verify = .ok ()) : p.WellFormed :=
  defect?_eq_none_iff.mp (verify_eq_ok_iff_defect?.mp h)

/-- **The verifier accepts exactly the well-formed programs.** -/
theorem Program.verify_accepts_exactly_wellFormed (p : Program) :
    p.verify = .ok () ↔ p.WellFormed := by
  rw [verify_eq_ok_iff_defect?, defect?_eq_none_iff]

/-! ## What well-formedness gives to an execution -/

theorem Operation.isTerminator_of_mem_targets {op : Operation} {t : BlockId}
    (h : t ∈ op.targets) : op.isTerminator = true := by
  cases hop : op.isTerminator with
  | true => rfl
  | false =>
      rw [targets_eq_nil_of_not_isTerminator hop] at h
      cases h

/-- In a block that ends once, the terminators are found by their position. -/
theorem Block.EndsOnce.isTerminator_iff {b : Block} {k : Nat} {i : Instr} (h : b.EndsOnce)
    (hk : b.instrs[k]? = some i) : i.op.isTerminator = true ↔ k + 1 = b.instrs.length := by
  obtain ⟨body, last, hb, hlast, hbody⟩ := h
  rw [hb] at hk ⊢
  rw [List.length_append, List.length_singleton]
  rcases Nat.lt_or_ge k body.length with hlt | hge
  · rw [List.getElem?_append_left hlt] at hk
    have hi := hbody i (List.mem_of_getElem? hk)
    rw [hi]
    constructor
    · intro hcon
      cases hcon
    · intro hcon
      omega
  · rw [List.getElem?_append_right hge, List.getElem?_singleton] at hk
    split at hk
    · cases hk
      exact ⟨fun _ => by omega, fun _ => hlast⟩
    · cases hk

/-- In a block that ends once, an instruction that is not a terminator has a next one. -/
theorem Block.EndsOnce.succ_lt {b : Block} {k : Nat} {i : Instr} (h : b.EndsOnce)
    (hk : b.instrs[k]? = some i) (hi : i.op.isTerminator = false) :
    k + 1 < b.instrs.length := by
  have hlt : k < b.instrs.length := (List.getElem?_eq_some_iff.mp hk).1
  have hne : k + 1 ≠ b.instrs.length := by
    intro heq
    rw [(h.isTerminator_iff hk).mpr heq] at hi
    cases hi
  omega

/-- In a block that ends once, a terminator is the last instruction. -/
theorem Block.EndsOnce.getLast?_eq {b : Block} {k : Nat} {i : Instr} (h : b.EndsOnce)
    (hk : b.instrs[k]? = some i) (hi : i.op.isTerminator = true) :
    b.instrs.getLast? = some i := by
  have hlen := (h.isTerminator_iff hk).mp hi
  rw [List.getLast?_eq_getElem?, ← hlen, Nat.add_sub_cancel, hk]

/-- A block that ends once may lead where any of its instructions may lead, which is where its
last instruction may. -/
theorem Block.EndsOnce.mem_targets {b : Block} {k : Nat} {i : Instr} {t : BlockId}
    (h : b.EndsOnce) (hk : b.instrs[k]? = some i) (ht : t ∈ i.op.targets) : t ∈ b.targets := by
  have hlast := h.getLast?_eq hk (Operation.isTerminator_of_mem_targets ht)
  simpa [Block.targets, hlast] using ht

theorem Program.BodyWellFormed.params_le {p : Program} {f : Function}
    (h : p.BodyWellFormed f) : f.params.length ≤ f.valueCount :=
  (f.definitions_iff.mp ⟨h.definitions_nodup, h.definitions_lt⟩).1

theorem Program.BodyWellFormed.dest_lt {p : Program} {f : Function} {b : Block} {i : Instr}
    {v : ValueId} (h : p.BodyWellFormed f) (hb : b ∈ f.blocks) (hi : i ∈ b.instrs)
    (hv : i.dest = some v) : v < f.valueCount := by
  refine h.definitions_lt v (List.mem_append_right _ ?_)
  exact List.mem_flatMap.mpr ⟨b, hb, List.mem_filterMap.mpr ⟨i, hi, hv⟩⟩

/-- In a program whose function names are distinct, every function is found by its name. -/
theorem Program.WellFormed.functionId?_name {p : Program} (h : p.WellFormed) {f : Function}
    (hf : f ∈ p.functions) : ∃ id, p.functionId? f.name = some id ∧ p.function? id = some f := by
  have hfound : ((p.functions.zipIdx.reverse.find? fun g => g.1.name == f.name)).isSome := by
    obtain ⟨k, hk⟩ := List.mem_iff_getElem?.mp hf
    refine List.find?_isSome.mpr ⟨(f, k), ?_, by simp⟩
    exact List.mem_reverse.mpr (List.mk_mem_zipIdx_iff_getElem?.mpr hk)
  -- what is found is the last function of that name, hence the only one
  obtain ⟨⟨g, k⟩, hg⟩ := Option.isSome_iff_exists.mp hfound
  have hname : g.name = f.name := by simpa using List.find?_some hg
  have hk : p.functions[k]? = some g :=
    List.mk_mem_zipIdx_iff_getElem?.mp (List.mem_reverse.mp (List.mem_of_find?_eq_some hg))
  have heq : g = f :=
    List.inj_on_of_nodup_map h.functions_nodup (List.mem_of_getElem? hk) hf hname
  refine ⟨k, ?_, heq ▸ hk⟩
  simp [functionId?, hg]

end SsaMachine
