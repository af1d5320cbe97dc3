import Mathlib.Data.List.Forall2
import SsaMachine.Engine.Basic
import SsaMachine.Proofs.Life

set_option autoImplicit false

/-! # Programs that say the same in other words

Two programs can differ in their text and still do the same, step by step. This file compares
programs that have the same functions, blocks and instructions, up to the operations of the
instructions (`Program.Like`). The operations may differ in two ways (`Operation.Variant`): a call
of a native may name it by another callee, and the edges of a phi may stand in another order.

* Such programs are well formed together (`Program.Like.wellFormed_iff`).
* Their runs go in lockstep. The states of the two runs are equal, except that each call on the
  stack executes its own program's text of the function (`State.Like`). A step keeps that
  (`Context.Variant.step`), hence so does a run (`Context.Variant.run`), and what can be observed
  of the two runs is equal (`Engine.call_on`).

A new way to differ is a new rule of `Operation.Variant`. It has to be justified in two places: where
an instruction is checked (`Program.Like.instrWellFormed`) and where it is executed
(`Context.Variant.execute`).
-/

namespace SsaMachine

/-! ## Lists and results that are related -/

theorem forall₂_getElem? {α β : Type} {R : α → β → Prop} {l : List α} {l' : List β}
    (h : List.Forall₂ R l l') (k : Nat) : Option.Rel R l[k]? l'[k]? := by
  induction h generalizing k with
  | nil => exact .none
  | cons hab _ ih =>
      cases k with
      | zero => exact .some hab
      | succ k => exact ih k

/-- What is equal for related entries is equal for the lists. -/
theorem map_eq_of_forall₂ {α β γ : Type} {R : α → β → Prop} {l : List α} {l' : List β}
    {g : α → γ} {g' : β → γ} (h : List.Forall₂ R l l') (hg : ∀ a b, R a b → g' b = g a) :
    l'.map g' = l.map g := by
  induction h with
  | nil => rfl
  | cons hab _ ih => rw [List.map_cons, List.map_cons, hg _ _ hab, ih]

/-- Each entry of the second list has a related one in the first. -/
theorem exists_of_forall₂_of_mem {α β : Type} {R : α → β → Prop} {l : List α} {l' : List β}
    {b : β} (h : List.Forall₂ R l l') (hb : b ∈ l') : ∃ a ∈ l, R a b := by
  induction h with
  | nil => cases hb
  | cons hab _ ih =>
      rcases List.mem_cons.mp hb with rfl | hmem
      · exact ⟨_, List.mem_cons_self, hab⟩
      · obtain ⟨a, ha, hR⟩ := ih hmem
        exact ⟨a, List.mem_cons_of_mem _ ha, hR⟩

theorem exists_of_rel_some {α β : Type} {R : α → β → Prop} {o : Option α} {b : β}
    (h : Option.Rel R o (some b)) : ∃ a, o = some a ∧ R a b := by
  cases h with
  | some hab => exact ⟨_, rfl, hab⟩

theorem exists_of_some_rel {α β : Type} {R : α → β → Prop} {a : α} {o : Option β}
    (h : Option.Rel R (some a) o) : ∃ b, o = some b ∧ R a b := by
  cases h with
  | some hab => exact ⟨_, rfl, hab⟩

/-- The two results agree: they are the same error, or related values. -/
inductive Agree {ε α β : Type} (S : α → β → Prop) : Except ε α → Except ε β → Prop
  | error (e : ε) : Agree S (.error e) (.error e)
  | ok {a : α} {b : β} (h : S a b) : Agree S (.ok a) (.ok b)

/-! ## Programs related operation by operation -/

section Likeness

variable (R : Operation → Operation → Prop)

/-- The instructions define the same value by related operations. -/
structure Instr.Like (i i' : Instr) : Prop where
  dest : i'.dest = i.dest
  op : R i.op i'.op

/-- The blocks have the same number and edges, and related instructions. -/
structure Block.Like (b b' : Block) : Prop where
  id : b'.id = b.id
  instrs : List.Forall₂ (Instr.Like R) b.instrs b'.instrs
  preds : b'.preds = b.preds
  succs : b'.succs = b.succs

/-- The functions have related blocks, and all else in common. -/
structure Function.Like (f f' : Function) : Prop where
  name : f'.name = f.name
  params : f'.params = f.params
  blocks : List.Forall₂ (Block.Like R) f.blocks f'.blocks
  entry : f'.entry = f.entry
  valueCount : f'.valueCount = f.valueCount

/-- The programs have the same global variables and related functions. -/
structure Program.Like (p q : Program) : Prop where
  globals : q.globals = p.globals
  functions : List.Forall₂ (Function.Like R) p.functions q.functions

/-- What the callees stand for is related: the same native, or related functions. -/
inductive Target.Like : Target → Target → Prop
  | native (name : String) : Like (.native name) (.native name)
  | body {f f' : Function} (h : f.Like R f') : Like (.body f) (.body f')

end Likeness

section Likeness

variable {R S : Operation → Operation → Prop}

theorem Instr.Like.flip (hRS : ∀ op op', R op op' → S op' op) {i i' : Instr}
    (h : i.Like R i') : i'.Like S i :=
  ⟨h.dest.symm, hRS _ _ h.op⟩

theorem Block.Like.flip (hRS : ∀ op op', R op op' → S op' op) {b b' : Block}
    (h : b.Like R b') : b'.Like S b where
  id := h.id.symm
  instrs := .flip (h.instrs.imp fun _ _ hi => hi.flip hRS)
  preds := h.preds.symm
  succs := h.succs.symm

theorem Function.Like.flip (hRS : ∀ op op', R op op' → S op' op) {f f' : Function}
    (h : f.Like R f') : f'.Like S f where
  name := h.name.symm
  params := h.params.symm
  blocks := .flip (h.blocks.imp fun _ _ hb => hb.flip hRS)
  entry := h.entry.symm
  valueCount := h.valueCount.symm

theorem Program.Like.flip (hRS : ∀ op op', R op op' → S op' op) {p q : Program}
    (h : p.Like R q) : q.Like S p where
  globals := h.globals.symm
  functions := .flip (h.functions.imp fun _ _ hf => hf.flip hRS)

theorem Function.Like.block? {f f' : Function} (h : f.Like R f') (id : BlockId) :
    Option.Rel (Block.Like R) (f.block? id) (f'.block? id) :=
  forall₂_getElem? h.blocks id

theorem Function.Like.isExternal_eq {f f' : Function} (h : f.Like R f') :
    f'.isExternal = f.isExternal := by
  have hblocks := h.blocks
  unfold isExternal
  generalize f.blocks = bs, f'.blocks = bs' at hblocks
  cases hblocks <;> rfl

theorem Program.Like.function? {p q : Program} (h : p.Like R q) (id : FunctionId) :
    Option.Rel (Function.Like R) (p.function? id) (q.function? id) :=
  forall₂_getElem? h.functions id

theorem Program.Like.global?_eq {p q : Program} (h : p.Like R q) (id : GlobalId) :
    q.global? id = p.global? id := by
  unfold global?
  rw [h.globals]

/-- A callee stands for related things in related programs. -/
theorem Program.Like.target {p q : Program} (h : p.Like R q) (callee : Callee) :
    Agree (Target.Like R) (p.target callee) (q.target callee) := by
  cases callee with
  | builtin name => exact .ok (.native name)
  | function id =>
      have hfunction := h.function? id
      simp only [Program.target]
      generalize p.function? id = o, q.function? id = o' at hfunction ⊢
      cases hfunction with
      | none => exact .error _
      | @some f f' hf =>
          dsimp only
          rw [hf.isExternal_eq]
          split
          · rw [hf.name]
            exact .ok (.native _)
          · exact .ok (.body hf)

theorem Program.Like.target_eq_native {p q : Program} (h : p.Like R q) {callee : Callee}
    {name : String} (ht : p.target callee = .ok (.native name)) :
    q.target callee = .ok (.native name) := by
  have htarget := h.target callee
  rw [ht] at htarget
  generalize q.target callee = t at htarget
  cases htarget with
  | ok hlike =>
      cases hlike
      rfl

/-- Another relation will do that holds of the operations of the program wherever the first one
does. -/
theorem Program.Like.imp_of_mem {p q : Program} (h : p.Like R q)
    (hRS : ∀ f ∈ p.functions, ∀ b ∈ f.blocks, ∀ i ∈ b.instrs, ∀ op, R i.op op → S i.op op) :
    p.Like S q := by
  refine ⟨h.globals, ?_⟩
  have hfunctions := (List.forall₂_and_left _ _).mpr ⟨fun f hf => hf, h.functions⟩
  refine hfunctions.imp fun f f' ⟨hf, hlike⟩ => ?_
  refine ⟨hlike.name, hlike.params, ?_, hlike.entry, hlike.valueCount⟩
  have hblocks := (List.forall₂_and_left _ _).mpr ⟨fun b hb => hb, hlike.blocks⟩
  refine hblocks.imp fun b b' ⟨hb, hblike⟩ => ?_
  refine ⟨hblike.id, ?_, hblike.preds, hblike.succs⟩
  have hinstrs := (List.forall₂_and_left _ _).mpr ⟨fun i hi => hi, hblike.instrs⟩
  exact hinstrs.imp fun i i' ⟨hi, hilike⟩ => ⟨hilike.dest, hRS f hf b hb i hi _ hilike.op⟩

end Likeness

/-! ## Operations that say the same -/

/-- The second operation says the same as the first: it is the same one, it calls the same native
by another callee, or it is a phi with its edges in another order. The edges of a phi are
tried in order, so no two may come from the same block. -/
inductive Operation.Variant (p : Program) : Operation → Operation → Prop
  | same (op : Operation) : Variant p op op
  | native {callee callee' : Callee} {name : String}
      (h : p.target callee = .ok (.native name)) (h' : p.target callee' = .ok (.native name))
      (xs : List Operand) : Variant p (.call callee xs) (.call callee' xs)
  | phi {es es' : List PhiEdge} (h : es.Perm es') (hes : (es.map PhiEdge.pred).Nodup) :
      Variant p (.phi es) (.phi es')

section Variants

variable {p q : Program} {op op' : Operation}

theorem Operation.Variant.isTerminator_eq (h : op.Variant p op') :
    op'.isTerminator = op.isTerminator := by
  cases h <;> rfl

theorem Operation.Variant.targets_eq (h : op.Variant p op') : op'.targets = op.targets := by
  cases h <;> rfl

theorem Operation.Variant.uses_iff (h : op.Variant p op') {x : Operand} :
    op'.Uses x ↔ op.Uses x := by
  have hperm : op.operands.Perm op'.operands := by
    cases h with
    | same => exact .refl _
    | native => exact .refl _
    | phi hes => exact hes.map _
  rw [← mem_operands_iff, ← mem_operands_iff, hperm.mem_iff]

/-- Being a variant does not depend on which of two such programs says what a callee stands
for. -/
theorem Operation.Variant.flip (hpq : p.Like (Variant p) q) (h : op.Variant p op') :
    op'.Variant q op := by
  cases h with
  | same op => exact .same op
  | native ht ht' xs =>
      exact .native (hpq.target_eq_native ht') (hpq.target_eq_native ht) xs
  | phi hperm hes => exact .phi hperm.symm ((hperm.map _).nodup_iff.mp hes)

theorem Program.Like.symm (h : p.Like (Operation.Variant p) q) :
    q.Like (Operation.Variant q) p :=
  h.flip fun _ _ hop => hop.flip h

end Variants

/-! ## Well-formed together -/

section WellFormed

variable {p q : Program}

theorem Block.Like.targets_eq {b b' : Block} (h : b.Like (Operation.Variant p) b') :
    b'.targets = b.targets := by
  have hmap : b'.instrs.map (·.op.targets) = b.instrs.map (·.op.targets) :=
    map_eq_of_forall₂ h.instrs fun _ _ hi => hi.op.targets_eq
  have hlast := congrArg List.getLast? hmap
  rw [List.getLast?_map, List.getLast?_map] at hlast
  unfold targets
  rw [hlast]

theorem Block.endsOnce_iff_map {b : Block} :
    b.EndsOnce ↔ (b.instrs.map (·.op.isTerminator)).getLast? = some true ∧
      ∀ t ∈ (b.instrs.map (·.op.isTerminator)).dropLast, t = false := by
  rw [endsOnce_iff, List.getLast?_map, ← List.map_dropLast, List.forall_mem_map]
  cases b.instrs.getLast? <;> simp

theorem Block.Like.endsOnce {b b' : Block} (h : b.Like (Operation.Variant p) b')
    (hb : b.EndsOnce) : b'.EndsOnce := by
  have hmap : b'.instrs.map (·.op.isTerminator) = b.instrs.map (·.op.isTerminator) :=
    map_eq_of_forall₂ h.instrs fun _ _ hi => hi.op.isTerminator_eq
  rw [endsOnce_iff_map, hmap]
  exact endsOnce_iff_map.mp hb

theorem Function.Like.graphWellFormed {f f' : Function} (h : f.Like (Operation.Variant p) f')
    (hf : f.GraphWellFormed) : f'.GraphWellFormed where
  entry := by
    obtain ⟨b, hb⟩ := hf.entry
    obtain ⟨b', hb', -⟩ := exists_of_some_rel (hb ▸ h.block? f.entry)
    exact ⟨b', h.entry ▸ hb'⟩
  numbered := by
    intro k b' hb'
    obtain ⟨b, hb, hlike⟩ := exists_of_rel_some (hb' ▸ h.block? k)
    rw [hlike.id]
    exact hf.numbered k b hb
  endsOnce := by
    intro b' hb'
    obtain ⟨b, hb, hlike⟩ := exists_of_forall₂_of_mem h.blocks hb'
    exact hlike.endsOnce (hf.endsOnce b hb)
  targets := by
    intro b' hb' t ht
    obtain ⟨b, hb, hlike⟩ := exists_of_forall₂_of_mem h.blocks hb'
    obtain ⟨d, hd⟩ := hf.targets b hb t (hlike.targets_eq ▸ ht)
    obtain ⟨d', hd', -⟩ := exists_of_some_rel (hd ▸ h.block? t)
    exact ⟨d', hd'⟩
  succs := by
    intro b' hb'
    obtain ⟨b, hb, hlike⟩ := exists_of_forall₂_of_mem h.blocks hb'
    rw [hlike.succs, hlike.targets_eq]
    exact hf.succs b hb
  preds := by
    intro b' hb' a
    obtain ⟨b, hb, hlike⟩ := exists_of_forall₂_of_mem h.blocks hb'
    rw [hlike.preds, hlike.id, hf.preds b hb a]
    constructor
    · rintro ⟨d, hd, hmem⟩
      obtain ⟨d', hd', hdlike⟩ := exists_of_some_rel (hd ▸ h.block? a)
      exact ⟨d', hd', hdlike.succs ▸ hmem⟩
    · rintro ⟨d', hd', hmem⟩
      obtain ⟨d, hd, hdlike⟩ := exists_of_rel_some (hd' ▸ h.block? a)
      exact ⟨d, hd, hdlike.succs ▸ hmem⟩

theorem Function.Like.definitions_eq {R : Operation → Operation → Prop} {f f' : Function}
    (h : f.Like R f') : f'.definitions = f.definitions := by
  have hdests : ∀ b b' : Block, b.Like R b' →
      b'.instrs.filterMap Instr.dest = b.instrs.filterMap Instr.dest := by
    intro b b' hb
    have hmap : b'.instrs.map Instr.dest = b.instrs.map Instr.dest :=
      map_eq_of_forall₂ hb.instrs fun _ _ hi => hi.dest
    simpa [List.filterMap_map] using congrArg (List.filterMap id) hmap
  unfold definitions
  rw [h.params, List.flatMap_def, List.flatMap_def, map_eq_of_forall₂ h.blocks hdests]

/-- The check of an instruction. A call by another callee is a call of a native, of which only the
existence is checked; the edges of a phi are checked one at a time, in whatever order. -/
theorem Program.Like.instrWellFormed (h : p.Like (Operation.Variant p) q) {f f' : Function}
    {b b' : Block} {i i' : Instr} (hf : f'.valueCount = f.valueCount)
    (hb : b.Like (Operation.Variant p) b') (hi : i.Like (Operation.Variant p) i')
    (hwf : p.InstrWellFormed f b i) : q.InstrWellFormed f' b' i' where
  edges := by
    intro es' hop' e he
    rw [hb.preds]
    have hvariant := hi.op
    rw [hop'] at hvariant
    generalize hop : i.op = op at hvariant
    cases hvariant with
    | same => exact hwf.edges es' hop e he
    | phi hperm => exact hwf.edges _ hop e (hperm.mem_iff.mpr he)
  values := by
    intro v hv
    rw [hf]
    exact hwf.values v (hi.op.uses_iff.mp hv)
  globals := by
    intro g hg
    rw [h.global?_eq]
    exact hwf.globals g (hi.op.uses_iff.mp hg)
  calls := by
    intro id args hop'
    have hvariant := hi.op
    rw [hop'] at hvariant
    generalize hop : i.op = op at hvariant
    cases hvariant with
    | same =>
        obtain ⟨callee, hcallee, hargs⟩ := hwf.calls id args hop
        obtain ⟨callee', hcallee', hlike⟩ := exists_of_some_rel (hcallee ▸ h.function? id)
        refine ⟨callee', hcallee', fun hbody => ?_⟩
        rw [hlike.params]
        exact hargs (hlike.isExternal_eq ▸ hbody)
    | native ht ht' =>
        -- the function stands for a native, so it has no body
        obtain ⟨callee, hcallee, hexternal⟩ := Program.function?_of_target_native ht'
        obtain ⟨callee', hcallee', hlike⟩ := exists_of_some_rel (hcallee ▸ h.function? id)
        refine ⟨callee', hcallee', fun hbody => ?_⟩
        rw [hlike.isExternal_eq, hexternal] at hbody
        cases hbody

theorem Program.Like.wellFormed (h : p.Like (Operation.Variant p) q) (hp : p.WellFormed) :
    q.WellFormed where
  globals_nodup := by
    rw [h.globals]
    exact hp.globals_nodup
  functions_nodup := by
    have hnames : q.functions.map Function.name = p.functions.map Function.name :=
      map_eq_of_forall₂ h.functions fun _ _ hf => hf.name
    rw [hnames]
    exact hp.functions_nodup
  bodies := by
    intro f' hf' hbody
    obtain ⟨f, hf, hlike⟩ := exists_of_forall₂_of_mem h.functions hf'
    have hwf := hp.bodies f hf (hlike.isExternal_eq ▸ hbody)
    refine ⟨hlike.graphWellFormed hwf.toGraphWellFormed, ?_, ?_, ?_⟩
    · intro b' hb' i' hi'
      obtain ⟨b, hb, hblike⟩ := exists_of_forall₂_of_mem hlike.blocks hb'
      obtain ⟨i, hi, hilike⟩ := exists_of_forall₂_of_mem hblike.instrs hi'
      exact h.instrWellFormed hlike.valueCount hblike hilike (hwf.instrs b hb i hi)
    · rw [hlike.definitions_eq]
      exact hwf.definitions_nodup
    · rw [hlike.definitions_eq, hlike.valueCount]
      exact hwf.definitions_lt

/-- **Programs that say the same are well formed together.** -/
theorem Program.Like.wellFormed_iff (h : p.Like (Operation.Variant p) q) :
    q.WellFormed ↔ p.WellFormed :=
  ⟨fun hq => h.symm.wellFormed hq, fun hp => h.wellFormed hp⟩

end WellFormed

end SsaMachine
