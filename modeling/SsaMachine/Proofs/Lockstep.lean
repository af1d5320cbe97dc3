import SsaMachine.Proofs.Variant

set_option autoImplicit false

/-! # Runs in lockstep

Two programs that say the same (`Operation.Variant`) are executed side by side. At every moment the
two runs have the same resources, the same stack of calls and the same frames; only the text of
the functions that the calls execute is each program's own (`State.Like`).

A step of the machine looks at that text in four places: it finds the block and the instruction by
their numbers, it executes the phis at the head, it executes the instruction, and it finds what a
callee stands for. Each place has a lemma that the two sides agree, and the step lemma
(`Context.Variant.step`) puts them together. Since the whole state is compared, the runs of any
number of steps agree (`Context.Variant.run`): neither can end while the other goes on.
-/

namespace SsaMachine

/-! ## States that are alike -/

section States

variable (R : Operation → Operation → Prop)

/-- The calls are at the same point with the same frame, in related functions. -/
structure Activation.Like (a a' : Activation) : Prop where
  function : a.function.Like R a'.function
  frame : a'.frame = a.frame
  point : a'.point = a.point

/-- The waiting calls are at the same instruction with the same frame, in related functions. -/
structure Caller.Like (w w' : Caller) : Prop where
  function : w.function.Like R w'.function
  frame : w'.frame = w.frame
  block : w'.block = w.block
  index : w'.index = w.index
  dest : w'.dest = w.dest

/-- The states have the same resources and related calls on the stack, or the same result. -/
inductive State.Like : State → State → Prop
  | running {a a' : Activation} {ws ws' : List Caller} (ha : a.Like R a')
      (hws : List.Forall₂ (Caller.Like R) ws ws') (r : Resources) :
      Like ⟨.running a ws, r⟩ ⟨.running a' ws', r⟩
  | halted (result : Except Failure Value) (r : Resources) :
      Like ⟨.halted result, r⟩ ⟨.halted result, r⟩

end States

section States

variable {R : Operation → Operation → Prop}

theorem State.Like.result?_eq {s s' : State} (h : s.Like R s') : s'.result? = s.result? := by
  cases h <;> rfl

theorem State.Like.resources_eq {s s' : State} (h : s.Like R s') :
    s'.resources = s.resources := by
  cases h <;> rfl

theorem Caller.Like.location_eq {w w' : Caller} (h : w.Like R w') : w'.location = w.location := by
  unfold location
  rw [h.function.name, h.block, h.index]

theorem Caller.Like.resume {w w' : Caller} (h : w.Like R w') (v : Value) :
    Agree (Activation.Like R) (w.resume v) (w'.resume v) := by
  unfold Caller.resume
  rw [h.frame, h.dest, h.location_eq, h.index]
  cases w.frame.define w.dest v with
  | error fault => exact .error _
  | ok frame => exact .ok ⟨h.function, rfl, rfl⟩

/-- Related functions are entered in the same way, or refuse the arguments with the same fault. -/
theorem Function.Like.enter {f f' : Function} (h : f.Like R f') (args : List Value) :
    Agree (Activation.Like R) (Activation.enter f args) (Activation.enter f' args) := by
  unfold Activation.enter
  rw [h.name, h.params, h.valueCount, h.entry]
  split
  · exact .error _
  · cases Activation.bindParams f.name 0 (.start f.valueCount f.entry) (f.params.zip args) with
    | error fault => exact .error fault
    | ok frame => exact .ok ⟨h, rfl, rfl⟩

theorem State.like_running {fn fn' : Function} (hfn : fn.Like R fn') (f : Frame) (point : Point)
    {ws ws' : List Caller} (hws : List.Forall₂ (Caller.Like R) ws ws') (r : Resources) :
    State.Like R ⟨.running ⟨fn, f, point⟩ ws, r⟩ ⟨.running ⟨fn', f, point⟩ ws', r⟩ := by
  refine .running ?_ hws r
  exact ⟨hfn, rfl, rfl⟩

theorem State.like_deliver {ws ws' : List Caller} (hws : List.Forall₂ (Caller.Like R) ws ws')
    (r : Resources) (v : Value) : (State.deliver r v ws).Like R (State.deliver r v ws') := by
  cases hws with
  | nil => exact .halted _ r
  | @cons w w' ws ws' hw hws =>
      have hresume := hw.resume v
      simp only [deliver]
      generalize w.resume v = x, w'.resume v = x' at hresume ⊢
      cases hresume with
      | error failure => exact .halted _ r
      | ok ha => exact .running ha hws r

/-- A failure between two blocks is blamed on the same call instruction. -/
theorem State.like_abort {ws ws' : List Caller} (hws : List.Forall₂ (Caller.Like R) ws ws')
    (r : Resources) (failure : Failure) :
    (State.abort r failure ws).Like R (State.abort r failure ws') := by
  have hhead : ws'.head?.map Caller.location = ws.head?.map Caller.location := by
    cases hws with
    | nil => rfl
    | cons hw _ => exact congrArg some hw.location_eq
  unfold abort
  rw [hhead]
  exact .halted _ r

end States

/-! ## Contexts -/

/-- The contexts have the same cells for the global variables, and programs that say the same. -/
structure Context.Variant (c c' : Context) : Prop where
  program : c.program.Like (Operation.Variant c.program) c'.program
  globals : c'.globals = c.globals

namespace Context.Variant

variable {c c' : Context} (h : c.Variant c')
include h

/-! ### Operands -/

theorem eval_eq (f : Frame) (x : Operand) : c'.eval f x = c.eval f x := by
  cases x with
  | value id => rfl
  | constant k => rfl
  | global id => simp only [eval, globalAddress, h.program.global?_eq, h.globals]

theorem evalAll_eq (f : Frame) (xs : List Operand) : c'.evalAll f xs = c.evalAll f xs := by
  induction xs with
  | nil => rfl
  | cons x xs ih => simp only [evalAll, h.eval_eq, ih]

theorem evalResult_eq (f : Frame) (xs : List Operand) :
    c'.evalResult f xs = c.evalResult f xs := by
  match xs with
  | [] => rfl
  | [x] => exact h.eval_eq f x
  | x :: y :: ys => rfl

theorem selectEdge_eq (f : Frame) (es : List PhiEdge) :
    c'.selectEdge f es = c.selectEdge f es := by
  unfold selectEdge
  cases es.find? fun e => some e.pred == f.previous with
  | none => rfl
  | some e => exact h.eval_eq f e.operand

end Context.Variant

/-! ### Phis -/

/-- If no two edges come from the same block, the edge that is found is the only one. -/
theorem find?_pred_eq_some_iff {es : List PhiEdge} (hes : (es.map PhiEdge.pred).Nodup)
    {previous : Option BlockId} {e : PhiEdge} :
    es.find? (fun e => some e.pred == previous) = some e ↔ e ∈ es ∧ some e.pred = previous := by
  constructor
  · intro he
    exact ⟨List.mem_of_find?_eq_some he, by simpa using List.find?_some he⟩
  · rintro ⟨hmem, hpred⟩
    have hfound : (es.find? fun e => some e.pred == previous).isSome :=
      List.find?_isSome.mpr ⟨e, hmem, by simpa using hpred⟩
    obtain ⟨e', he'⟩ := Option.isSome_iff_exists.mp hfound
    have hpred' : some e'.pred = previous := by simpa using List.find?_some he'
    have heq : e'.pred = e.pred := Option.some.inj (hpred'.trans hpred.symm)
    rw [he', List.inj_on_of_nodup_map hes (List.mem_of_find?_eq_some he') hmem heq]

/-- **A phi takes the same value in whatever order its edges stand.** -/
theorem Context.selectEdge_perm (c : Context) (f : Frame) {es es' : List PhiEdge}
    (h : es.Perm es') (hes : (es.map PhiEdge.pred).Nodup) :
    c.selectEdge f es' = c.selectEdge f es := by
  have hes' : (es'.map PhiEdge.pred).Nodup := (h.map _).nodup_iff.mp hes
  have hfind : es'.find? (fun e => some e.pred == f.previous) =
      es.find? fun e => some e.pred == f.previous := by
    ext e
    rw [find?_pred_eq_some_iff hes', find?_pred_eq_some_iff hes, h.mem_iff]
  unfold selectEdge
  rw [hfind]

namespace Context.Variant

variable {c c' : Context} (h : c.Variant c')
include h

theorem readPhis_eq (f : Frame) (name : String) (id : BlockId) (k : Nat) {is is' : List Instr}
    (his : List.Forall₂ (Instr.Like (Operation.Variant c.program)) is is') :
    c'.readPhis f name id k is' = c.readPhis f name id k is := by
  induction his generalizing k with
  | nil => rfl
  | @cons i i' is is' hi _ ih =>
      obtain ⟨dest, op⟩ := i
      obtain ⟨dest', op'⟩ := i'
      obtain ⟨hdest, hop⟩ := hi
      cases hdest
      cases hop with
      | same op =>
          cases op with
          | phi es => simp only [readPhis, h.selectEdge_eq, ih]
          | _ => rfl
      | native => rfl
      | phi hperm hes => simp only [readPhis, h.selectEdge_eq, c.selectEdge_perm f hperm hes, ih]

theorem resolvePhis_eq {fn fn' : Function} (hfn : fn'.name = fn.name) (f : Frame) {b b' : Block}
    (hb : b.Like (Operation.Variant c.program) b') :
    c'.resolvePhis fn' f b' = c.resolvePhis fn f b := by
  unfold resolvePhis
  rw [hfn, hb.id, h.readPhis_eq f fn.name b.id 0 hb.instrs]

end Context.Variant

/-! ### Instructions -/

/-- The effects are the same, or they ask for a call of the same native. -/
inductive Effect.Variant (p : Program) : Effect → Effect → Prop
  | same (e : Effect) : Variant p e e
  | native {callee callee' : Callee} {name : String}
      (h : p.target callee = .ok (.native name)) (h' : p.target callee' = .ok (.native name))
      (vs : List Value) : Variant p (.call callee vs) (.call callee' vs)

theorem Effect.agree_refl (p : Program) (x : Except Fault Effect) : Agree (Variant p) x x := by
  cases x with
  | error fault => exact .error fault
  | ok e => exact .ok (.same e)

namespace Context.Variant

variable {c c' : Context} (h : c.Variant c')
include h

theorem execute_eq (f : Frame) (m : Memory) (i : Instr) :
    c'.execute f m i = c.execute f m i := by
  obtain ⟨dest, op⟩ := i
  cases op <;>
    simp only [execute, evalAddress, evalCondition, h.eval_eq, h.evalAll_eq, h.evalResult_eq,
      h.selectEdge_eq]

theorem execute (f : Frame) (m : Memory) {i i' : Instr}
    (hi : i.Like (Operation.Variant c.program) i') :
    Agree (Effect.Variant c.program) (c.execute f m i) (c'.execute f m i') := by
  rw [h.execute_eq]
  obtain ⟨dest, op⟩ := i
  obtain ⟨dest', op'⟩ := i'
  obtain ⟨hdest, hop⟩ := hi
  cases hdest
  cases hop with
  | same op => exact Effect.agree_refl _ _
  | native ht ht' xs =>
      simp only [Context.execute]
      cases c.evalAll f xs with
      | error fault => exact .error fault
      | ok vs => exact .ok (.native ht ht' vs)
  | phi hperm hes =>
      simp only [Context.execute, c.selectEdge_perm f hperm hes]
      exact Effect.agree_refl _ _

omit h in
/-- Calls of related targets with the same arguments are made alike. -/
theorem invoke {callee callee' : Callee}
    (ht : Agree (Target.Like (Operation.Variant c.program)) (c.program.target callee)
      (c'.program.target callee'))
    (r : Resources) (vs : List Value) {w w' : Caller} {ws ws' : List Caller}
    (hw : w.Like (Operation.Variant c.program) w')
    (hws : List.Forall₂ (Caller.Like (Operation.Variant c.program)) ws ws') :
    (c.invoke r callee vs w ws).Like (Operation.Variant c.program) (c'.invoke r callee' vs w' ws') := by
  simp only [Context.invoke]
  rw [hw.location_eq]
  generalize c.program.target callee = t, c'.program.target callee' = t' at ht ⊢
  cases ht with
  | error fault => exact .halted _ r
  | ok ht =>
      cases ht with
      | native name =>
          dsimp only
          cases r.callNative name vs with
          | mk answer r' =>
              cases answer with
              | error fault => exact .halted _ r'
              | ok v => exact State.like_deliver (.cons hw hws) r' v
      | @body g g' hg =>
          have henter := hg.enter vs
          dsimp only
          generalize Activation.enter g vs = x, Activation.enter g' vs = x' at henter ⊢
          cases henter with
          | error fault => exact .halted _ r
          | ok ha => exact .running ha (.cons hw hws) r

theorem stepInstr (r : Resources) {fn fn' : Function} (hfn : fn.Like (Operation.Variant c.program) fn')
    (f : Frame) (id : BlockId) (k : Nat) {i i' : Instr} (hi : i.Like (Operation.Variant c.program) i')
    {ws ws' : List Caller} (hws : List.Forall₂ (Caller.Like (Operation.Variant c.program)) ws ws') :
    (c.stepInstr r fn f id k i ws).Like (Operation.Variant c.program)
      (c'.stepInstr r fn' f id k i' ws') := by
  have hexecute := h.execute f r.memory hi
  have hcaller : Caller.Like (Operation.Variant c.program) ⟨fn, f, id, k, i.dest⟩
      ⟨fn', f, id, k, i'.dest⟩ := ⟨hfn, rfl, rfl, rfl, hi.dest⟩
  simp only [Context.stepInstr]
  rw [hfn.name]
  generalize c.execute f r.memory i = x, c'.execute f r.memory i' = x' at hexecute ⊢
  cases hexecute with
  | error fault => exact .halted _ r
  | @ok e _ heffect =>
      cases heffect with
      | @native callee callee' name ht ht' vs =>
          -- both callees stand for the same native, each in its own program
          have htarget : Agree (Target.Like (Operation.Variant c.program))
              (c.program.target callee) (c'.program.target callee') := by
            rw [ht, h.program.target_eq_native ht']
            exact .ok (.native name)
          exact invoke htarget r vs hcaller hws
      | same =>
          cases e with
          | proceed f' m' => exact State.like_running hfn f' _ hws _
          | goto t => exact State.like_running hfn _ .head hws r
          | exit v => exact State.like_running hfn _ .head hws r
          | call callee vs => exact invoke (h.program.target callee) r vs hcaller hws

/-! ## Steps and runs -/

/-- The step lemma: the two machines look at the texts of the two programs in the same places,
and find related things there. -/
theorem step {s s' : State} (hs : s.Like (Operation.Variant c.program) s') :
    (c.step s).Like (Operation.Variant c.program) (c'.step s') := by
  cases hs with
  | halted result r => exact .halted result r
  | @running a a' ws ws' ha hws r =>
      obtain ⟨fn, f, point⟩ := a
      obtain ⟨fn', f', point'⟩ := a'
      obtain ⟨hfn, hframe, hpoint⟩ := ha
      cases hframe
      cases hpoint
      simp only [Context.step]
      cases f.block with
      | none => exact State.like_deliver hws r f.result
      | some id =>
          have hblock := hfn.block? id
          dsimp only at hblock ⊢
          generalize fn.block? id = o, fn'.block? id = o' at hblock ⊢
          cases hblock with
          | none => exact State.like_abort hws r _
          | @some b b' hb =>
              cases point with
              | head =>
                  dsimp only
                  rw [h.resolvePhis_eq hfn.name f hb]
                  cases c.resolvePhis fn f b with
                  | error failure => exact State.like_abort hws r failure
                  | ok result =>
                      obtain ⟨g, n⟩ := result
                      exact State.like_running hfn g (.instr n) hws r
              | instr k =>
                  have hinstr := forall₂_getElem? hb.instrs k
                  dsimp only
                  rw [hfn.name]
                  generalize b.instrs[k]? = o, b'.instrs[k]? = o' at hinstr ⊢
                  cases hinstr with
                  | none => exact .halted _ r
                  | some hi => exact h.stepInstr r hfn f id k hi hws

/-- **The runs of two programs that say the same go in lockstep.** -/
theorem run (n : Nat) {s s' : State} (hs : s.Like (Operation.Variant c.program) s') :
    (c.run n s).Like (Operation.Variant c.program) (c'.run n s') := by
  induction n generalizing s s' with
  | zero => exact hs
  | succ n ih =>
      cases hs with
      | halted result r => exact .halted result r
      | running ha hws r => exact ih (h.step (.running ha hws r))

theorem start (r : Resources) (callee : Callee) (args : List Value) :
    (c.start r callee args).Like (Operation.Variant c.program) (c'.start r callee args) := by
  have htarget := h.program.target callee
  simp only [Context.start]
  generalize c.program.target callee = t, c'.program.target callee = t' at htarget ⊢
  cases htarget with
  | error fault => exact .halted _ r
  | ok ht =>
      cases ht with
      | native name =>
          dsimp only
          cases r.callNative name args with
          | mk answer r' =>
              cases answer with
              | error fault => exact .halted _ r'
              | ok v => exact .halted _ r'
      | @body g g' hg =>
          have henter := hg.enter args
          dsimp only
          generalize Activation.enter g args = x, Activation.enter g' args = x' at henter ⊢
          cases henter with
          | error fault => exact .halted _ r
          | ok ha => exact .running ha .nil r

end Context.Variant

/-! ## Engines -/

/-- The engine with another program in its place: the same cells, natives and output. -/
def Engine.on (e : Engine) (q : Program) : Engine :=
  { e with program := q }

/-- An engine does the same with a program that says the same: after any number of steps, a call
has the same result, if it has one, and leaves the same cells, natives and output. -/
theorem Engine.call_on {e : Engine} {q : Program}
    (h : e.program.Like (Operation.Variant e.program) q) (fuel : Nat) (callee : Callee)
    (args : List Value) :
    (e.on q).call fuel callee args =
      ((e.call fuel callee args).1, (e.call fuel callee args).2.on q) := by
  have hcontext : e.context.Variant (e.on q).context := ⟨h, rfl⟩
  have hrun := hcontext.run fuel (hcontext.start e.resources callee args)
  have hresult := hrun.result?_eq
  have hresources := hrun.resources_eq
  unfold call
  exact Prod.ext hresult (congrArg (fun r => (⟨q, e.globals, r⟩ : Engine)) hresources)

/-- Programs that say the same are verified together. -/
theorem Program.Like.verify_iff {p q : Program} (h : p.Like (Operation.Variant p) q) :
    q.verify = .ok () ↔ p.verify = .ok () := by
  rw [verify_eq_ok_iff_defect?, verify_eq_ok_iff_defect?, defect?_eq_none_iff,
    defect?_eq_none_iff, h.wellFormed_iff]

end SsaMachine
