import Mathlib.Data.Set.Basic
import SsaMachine.Proofs.Life

set_option autoImplicit false

/-! # How far a run can reach

A program has no address arithmetic. It gets an address from an argument, from an operand that
names a global variable, or from a cell that it can already reach, and a constant only gives the
null address. This file turns that into an invariant of runs.

A `Region` is a set of addresses and a set of functions. It is closed (`Region.Closed`) when its
functions name only global variables with cells in it and call only functions in it. If the cells
of a closed region hold no address that leads out of it, then a run that starts inside stays inside
(`Context.within_run`): no frame at any depth of calls ever holds an address from outside, and no
cell outside is changed.

The natives that a program can call must keep to this as well. Those that print do, because they
leave the cells alone and answer with the unit (`Native.OnlyWrites`).
-/

namespace SsaMachine

/-! ## Regions -/

/-- The instruction is one of the function. -/
def Function.Has (f : Function) (i : Instr) : Prop :=
  ∃ b ∈ f.blocks, i ∈ b.instrs

/-- The function has an operand that names the global variable `g`. -/
def Function.Names (f : Function) (g : GlobalId) : Prop :=
  ∃ i, f.Has i ∧ i.op.Uses (.global g)

/-- The function has an instruction that calls the function with the number `id`. -/
def Function.CallsTo (f : Function) (id : FunctionId) : Prop :=
  ∃ i xs, f.Has i ∧ i.op = .call (.function id) xs

/-- The addresses that a run may hold, and the functions that it may execute. -/
structure Region where
  addresses : Set Address
  functions : Set Function

/-- What the functions of the region name and call is in the region. -/
structure Region.Closed (R : Region) (c : Context) : Prop where
  null : .null ∈ R.addresses
  globals : ∀ f ∈ R.functions, ∀ g a, f.Names g → c.globalAddress g = .ok a → a ∈ R.addresses
  callees : ∀ f ∈ R.functions, ∀ id g, f.CallsTo id → c.program.function? id = some g →
    g ∈ R.functions

/-- A value that is an address is one of the region. -/
def Value.Within (v : Value) (R : Region) : Prop :=
  ∀ a, v = .address a → a ∈ R.addresses

/-- The frame holds no address from outside the region. -/
structure Frame.Within (f : Frame) (R : Region) : Prop where
  values : ∀ id v, f.value? id = some v → v.Within R
  result : f.result.Within R

/-- The cells of the region hold no address from outside. -/
def Memory.Within (m : Memory) (R : Region) : Prop :=
  ∀ a ∈ R.addresses, ∀ v, m.content? a = some v → v.Within R

/-- The call executes a function of the region and stays inside. -/
structure Activation.Within (a : Activation) (R : Region) : Prop where
  function : a.function ∈ R.functions
  frame : a.frame.Within R

/-- The waiting call executes a function of the region and has stayed inside. -/
structure Caller.Within (w : Caller) (R : Region) : Prop where
  function : w.function ∈ R.functions
  frame : w.frame.Within R

/-- The second memory has the same contents outside the region. -/
def Memory.SameOutside (R : Region) (m m' : Memory) : Prop :=
  ∀ a, a ∉ R.addresses → m'.content? a = m.content? a

theorem Memory.SameOutside.refl (R : Region) (m : Memory) : m.SameOutside R m :=
  fun _ _ => rfl

/-! ## Values -/

theorem Value.within_unit (R : Region) : Value.unit.Within R := by
  intro a h
  cases h

/-- The only address that a constant stands for is null. -/
theorem Constant.within_of_materialize {k : Constant} {v : Value} {R : Region}
    (hnull : .null ∈ R.addresses) (h : k.materialize = .ok v) : v.Within R := by
  rintro a rfl
  unfold materialize at h
  split at h <;> try cases h
  · split at h <;> cases h
  · exact hnull

/-- A unary operator makes an address only by loading it. -/
theorem UnaryOp.within_of_eval {op : UnaryOp} {m : Memory} {v r : Value} {R : Region}
    (hm : m.Within R) (hv : v.Within R) (h : op.eval m v = .ok r) : r.Within R := by
  unfold eval at h
  split at h
  · rename_i a
    exact hm a (hv a rfl) r (Memory.read_eq_ok_iff.mp h)
  iterate 4
    · cases h
      intro b hb
      cases hb
  · cases h

theorem BinaryOp.onEquality?_ne_address {α : Type} [BEq α] (op : BinaryOp) (x y : α)
    (a : Address) : op.onEquality? x y ≠ some (.address a) := by
  cases op <;> simp [onEquality?]

/-- A binary operator makes no address. -/
theorem BinaryOp.within_of_eval {op : BinaryOp} {l r v : Value} (R : Region)
    (h : op.eval l r = .ok v) : v.Within R := by
  rintro a rfl
  unfold eval at h
  split at h
  · split at h
    · cases op <;> simp only [onWords] at h <;> try cases h
      all_goals split at h <;> cases h
    · cases h
  -- floating-point numbers of either type
  iterate 2
    · cases op <;> cases h
  · cases op <;> cases h
  -- truth values and addresses are only compared
  iterate 2
    · dsimp only at h
      split at h <;> cases h
      rename_i hsome
      exact absurd hsome (onEquality?_ne_address op _ _ a)
  · cases h

/-! ## Cells -/

/-- A store inside the region keeps the cells inside, and changes nothing outside. -/
theorem Memory.Within.write {m m' : Memory} {a : Address} {v : Value} {R : Region}
    (hm : m.Within R) (ha : a ∈ R.addresses) (hv : v.Within R) (h : m.write a v = .ok m') :
    m'.Within R ∧ m.SameOutside R m' := by
  refine ⟨fun b hb w hw => ?_, fun b hb => content?_write_of_ne h (ne_of_mem_of_not_mem ha hb).symm⟩
  by_cases hba : b = a
  · rw [hba, content?_write_self h] at hw
    cases hw
    exact hv
  · rw [content?_write_of_ne h hba] at hw
    exact hm b hb w hw

/-! ## Frames -/

theorem Frame.within_start (count : Nat) (entry : BlockId) (R : Region) :
    (Frame.start count entry).Within R where
  values id v h := by simp at h
  result := Value.within_unit R

section Frames

variable {f f' : Frame} {R : Region}

theorem Frame.Within.bind (hf : f.Within R) {id : ValueId} {v : Value} (hv : v.Within R)
    (h : f.bind id v = .ok f') : f'.Within R := by
  constructor
  · intro k w hw
    by_cases hk : k = id
    · rw [hk, value?_bind_self h] at hw
      cases hw
      exact hv
    · rw [value?_bind_of_ne h hk] at hw
      exact hf.values k w hw
  · obtain ⟨-, rfl⟩ := bind_eq_ok_iff.mp h
    exact hf.result

theorem Frame.Within.define (hf : f.Within R) {dest : Option ValueId} {v : Value}
    (hv : v.Within R) (h : f.define dest v = .ok f') : f'.Within R := by
  cases dest with
  | none =>
      cases h
      exact hf
  | some id => exact hf.bind hv h

theorem Frame.Within.defineAll (hf : f.Within R) {l : List (Option ValueId × Value)}
    (hl : ∀ dv ∈ l, dv.2.Within R) (h : f.defineAll l = .ok f') : f'.Within R := by
  induction l generalizing f with
  | nil =>
      cases h
      exact hf
  | cons dv rest ih =>
      obtain ⟨dest, v⟩ := dv
      unfold Frame.defineAll at h
      split at h
      · cases h
      · rename_i g hdef
        have hg : g.Within R := hf.define (hl (dest, v) List.mem_cons_self) hdef
        exact ih hg (fun dv hdv => hl dv (List.mem_cons_of_mem _ hdv)) h

theorem Frame.Within.bindParams (hf : f.Within R) {name : String} {k : Nat}
    {l : List (Param × Value)} (hl : ∀ pa ∈ l, pa.2.Within R)
    (h : Activation.bindParams name k f l = .ok f') : f'.Within R := by
  induction l generalizing k f with
  | nil =>
      cases h
      exact hf
  | cons pa rest ih =>
      obtain ⟨param, arg⟩ := pa
      unfold Activation.bindParams at h
      split at h
      · split at h
        · cases h
        · rename_i g hbind
          have hg : g.Within R := hf.bind (hl (param, arg) List.mem_cons_self) hbind
          exact ih hg (fun pa hpa => hl pa (List.mem_cons_of_mem _ hpa)) h
      · cases h

end Frames

/-- A call of a function of the region with arguments of the region is inside. -/
theorem Activation.within_of_enter {f : Function} {args : List Value} {a : Activation}
    {R : Region} (hf : f ∈ R.functions) (hargs : ∀ v ∈ args, v.Within R)
    (h : enter f args = .ok a) : a.Within R := by
  unfold enter at h
  split at h
  · cases h
  · split at h
    · cases h
    · rename_i frame hbind
      cases h
      refine ⟨hf, (Frame.within_start _ _ R).bindParams ?_ hbind⟩
      intro pa hpa
      exact hargs pa.2 (List.of_mem_zip hpa).2

theorem Caller.Within.resume {w : Caller} {R : Region} {v : Value} {a : Activation}
    (hw : w.Within R) (hv : v.Within R) (h : w.resume v = .ok a) : a.Within R := by
  unfold Caller.resume at h
  split at h
  · cases h
  · rename_i frame hdef
    cases h
    exact ⟨hw.function, hw.frame.define hv hdef⟩

/-! ## Instructions -/

/-- What an instruction leads to is inside: it stores an address of the region in a cell of the
region, and binds, returns or passes on addresses of the region only. -/
def Effect.Within (R : Region) (m : Memory) : Effect → Prop
  | proceed f m' => f.Within R ∧ m'.Within R ∧ m.SameOutside R m'
  | goto _ => True
  | exit v => v.Within R
  | call _ vs => ∀ v ∈ vs, v.Within R

section Instructions

variable {c : Context} {R : Region} {fn : Function} {f : Frame} {i : Instr}
variable (hR : R.Closed c) (hfn : fn ∈ R.functions) (hf : f.Within R)

section Operands

-- the instruction whose operands are evaluated
variable (hi : fn.Has i)
include hR hfn hf hi

theorem Context.within_of_eval {x : Operand} (hx : i.op.Uses x) {v : Value}
    (h : c.eval f x = .ok v) : v.Within R := by
  cases x with
  | value id => exact hf.values id v (Frame.lookup_eq_ok_iff.mp h)
  | constant k => exact Constant.within_of_materialize hR.null h
  | global g =>
      cases ha : c.globalAddress g with
      | error fault => simp [eval, ha, Except.map] at h
      | ok a =>
          simp only [eval, ha, Except.map, Except.ok.injEq] at h
          rintro b rfl
          cases h
          exact hR.globals fn hfn g a ⟨i, hi, hx⟩ ha

theorem Context.within_of_evalAll {xs : List Operand} (hxs : ∀ x ∈ xs, i.op.Uses x)
    {vs : List Value} (h : c.evalAll f xs = .ok vs) : ∀ v ∈ vs, v.Within R := by
  induction xs generalizing vs with
  | nil =>
      cases h
      exact fun v hv => absurd hv List.not_mem_nil
  | cons x xs ih =>
      obtain ⟨v, hv, h⟩ := bind_eq_ok h
      obtain ⟨ws, hws, h⟩ := bind_eq_ok h
      cases h
      intro u hu
      rcases List.mem_cons.mp hu with rfl | hmem
      · exact within_of_eval hR hfn hf hi (hxs x List.mem_cons_self) hv
      · exact ih (fun y hy => hxs y (List.mem_cons_of_mem _ hy)) hws u hmem

theorem Context.mem_of_evalAddress {x : Operand} (hx : i.op.Uses x) {a : Address}
    (h : c.evalAddress f x = .ok a) : a ∈ R.addresses := by
  obtain ⟨v, hv, h⟩ := bind_eq_ok h
  cases v <;> cases h
  exact within_of_eval hR hfn hf hi hx hv a rfl

theorem Context.within_of_evalResult {xs : List Operand} (hxs : ∀ x ∈ xs, i.op.Uses x)
    {v : Value} (h : c.evalResult f xs = .ok v) : v.Within R := by
  match xs with
  | [] =>
      cases h
      exact Value.within_unit R
  | [x] => exact within_of_eval hR hfn hf hi (hxs x List.mem_cons_self) h
  | x :: y :: ys => cases h

theorem Context.within_of_selectEdge {edges : List PhiEdge} (hop : i.op = .phi edges)
    {v : Value} (h : c.selectEdge f edges = .ok v) : v.Within R := by
  unfold selectEdge at h
  split at h
  · rename_i e he
    have hx : i.op.Uses e.operand := hop ▸ .phiEdge (List.mem_of_find?_eq_some he)
    exact within_of_eval hR hfn hf hi hx h
  · cases h

/-- **An instruction of the region stays inside.** -/
theorem Context.Executes.within {m : Memory} (hm : m.Within R) {e : Effect}
    (h : c.Executes f m i e) : e.Within R m := by
  have hsame := Memory.SameOutside.refl R m
  cases h with
  | store hop ha hv hw =>
      have haddr := mem_of_evalAddress hR hfn hf hi (hop ▸ .storeAddr _ _) ha
      have hvalue := within_of_eval hR hfn hf hi (hop ▸ .storeValue _ _) hv
      exact ⟨hf, hm.write haddr hvalue hw⟩
  | unary hop hv hr hd =>
      have hvalue := within_of_eval hR hfn hf hi (hop ▸ .unary _ _) hv
      exact ⟨hf.define (UnaryOp.within_of_eval hm hvalue hr) hd, hm, hsame⟩
  | binary hop hl hr hv hd => exact ⟨hf.define (BinaryOp.within_of_eval R hv) hd, hm, hsame⟩
  | phi hop hv hd =>
      exact ⟨hf.define (within_of_selectEdge hR hfn hf hi hop hv) hd, hm, hsame⟩
  | call hop hvs =>
      exact within_of_evalAll hR hfn hf hi (fun x hx => hop ▸ .callArg _ hx) hvs
  | ret hop hv => exact within_of_evalResult hR hfn hf hi (fun x hx => hop ▸ .retResult hx) hv
  | branch hop hb => trivial
  | jump hop => trivial

end Operands

include hR hfn hf

theorem Context.within_of_readPhis {name : String} {id : BlockId} {k : Nat} {is : List Instr}
    (his : ∀ i ∈ is, fn.Has i) {values : List (Option ValueId × Value)}
    (h : c.readPhis f name id k is = .ok values) : ∀ dv ∈ values, dv.2.Within R := by
  fun_induction readPhis c f name id k is generalizing values with
  | case1 =>
      cases h
      exact fun dv hdv => absurd hdv List.not_mem_nil
  | case2 k i rest edges hop fault hsel => cases h
  | case3 k i rest edges hop v hsel ih =>
      cases hrest : c.readPhis f name id (k + 1) rest with
      | error failure => simp [hrest, Except.map] at h
      | ok tail =>
          simp only [hrest, Except.map, Except.ok.injEq] at h
          rw [← h]
          intro dv hdv
          rcases List.mem_cons.mp hdv with rfl | hmem
          · exact within_of_selectEdge hR hfn hf (his i List.mem_cons_self) hop hsel
          · exact ih (fun j hj => his j (List.mem_cons_of_mem _ hj)) hrest dv hmem
  | case4 k i rest hop =>
      cases h
      exact fun dv hdv => absurd hdv List.not_mem_nil

theorem Context.within_of_resolvePhis {b : Block} (hb : b ∈ fn.blocks) {f' : Frame} {n : Nat}
    (h : c.resolvePhis fn f b = .ok (f', n)) : f'.Within R := by
  unfold resolvePhis at h
  split at h
  · cases h
  · rename_i values hread
    split at h
    · cases h
    · rename_i g hdef
      cases h
      have hvalues := within_of_readPhis hR hfn hf (fun i hi => ⟨b, hb, hi⟩) hread
      exact hf.defineAll hvalues hdef

end Instructions

/-! ## Natives -/

/-- The native leaves the cells alone, does not look at them, and answers with no value but the
unit. -/
def Native.OnlyWrites (n : Native) : Prop :=
  ∀ call args s, ∃ answer s', (∀ v, answer = .ok v → v = .unit) ∧
    ∀ m, n.respond call args m s = (answer, m, s')

theorem Native.onlyWrites_writing (write : Sink → String → Option String × Sink)
    (text : List Value → String) : (Native.writing write text).OnlyWrites := by
  intro call args s
  cases h : write s (text args) with
  | mk failure s' =>
      cases failure with
      | none =>
          refine ⟨.ok .unit, s', fun v hv => ?_, fun m => by simp [writing, h]⟩
          cases hv
          rfl
      | some message =>
          refine ⟨.error (.output message), s', fun v hv => ?_, fun m => by simp [writing, h]⟩
          cases hv

theorem Resources.callNative_of_onlyWrites {r : Resources}
    (hr : r.registry.All Native.OnlyWrites) (name : String) (args : List Value) :
    (r.callNative name args).2.memory = r.memory ∧
      ∀ v, (r.callNative name args).1 = .ok v → v = .unit := by
  unfold callNative
  split
  · exact ⟨rfl, fun v hv => by cases hv⟩
  · rename_i e he
    obtain ⟨answer, s', hunit, hrespond⟩ :=
      hr e (List.mem_of_find?_eq_some he) (e.calls + 1) args r.sink
    rw [hrespond]
    exact ⟨rfl, hunit⟩

/-! ## Runs -/

/-- What holds of the resources of a run that has started inside the region with the memory `m₀`. -/
structure Resources.Within (r : Resources) (R : Region) (m₀ : Memory) : Prop where
  memory : r.memory.Within R
  outside : m₀.SameOutside R r.memory
  natives : r.registry.All Native.OnlyWrites

/-- The invariant of a run that has started inside the region with the memory `m₀`. -/
structure State.Within (s : State) (R : Region) (m₀ : Memory) : Prop where
  calls : ∀ a ws, s.status = .running a ws → a.Within R ∧ ∀ w ∈ ws, w.Within R
  resources : s.resources.Within R m₀

section Runs

variable {c : Context} {R : Region} {m₀ : Memory}

theorem Resources.Within.callNative {r : Resources} (hr : r.Within R m₀) (name : String)
    (args : List Value) : (r.callNative name args).2.Within R m₀ := by
  have hmem := (callNative_of_onlyWrites hr.natives name args).1
  exact ⟨hmem ▸ hr.memory, hmem ▸ hr.outside, callNative_registry hr.natives name args⟩

theorem State.within_halt {r : Resources} (hr : r.Within R m₀) (result : Except Failure Value) :
    (State.halt r result).Within R m₀ := by
  refine ⟨fun a ws h => ?_, hr⟩
  cases h

theorem State.within_running {a : Activation} {ws : List Caller} {r : Resources}
    (ha : a.Within R) (hws : ∀ w ∈ ws, w.Within R) (hr : r.Within R m₀) :
    State.Within ⟨.running a ws, r⟩ R m₀ := by
  refine ⟨fun a' ws' h => ?_, hr⟩
  cases h
  exact ⟨ha, hws⟩

/-- A value of the region can be handed to a call inside. -/
theorem State.within_deliver {v : Value} {ws : List Caller} {r : Resources} (hv : v.Within R)
    (hws : ∀ w ∈ ws, w.Within R) (hr : r.Within R m₀) : (State.deliver r v ws).Within R m₀ := by
  cases ws with
  | nil => exact within_halt hr _
  | cons w ws =>
      simp only [deliver]
      split
      · exact within_halt hr _
      · rename_i a hresume
        have ha : a.Within R := (hws w List.mem_cons_self).resume hv hresume
        exact within_running ha (fun w' hw' => hws w' (List.mem_cons_of_mem _ hw')) hr

theorem Activation.At.has {a : Activation} {id : BlockId} {b : Block} {k : Nat} {i : Instr}
    (h : a.At id b k i) : a.function.Has i :=
  ⟨b, List.mem_of_getElem? h.block, List.mem_of_getElem? h.instr⟩

/-- A call that moves on by itself stays inside. -/
theorem Context.Move.within (hR : R.Closed c) {r r' : Resources} {a a' : Activation}
    (ha : a.Within R) (hr : r.Within R m₀) (h : c.Move r a r' a') :
    a'.Within R ∧ r'.Within R m₀ := by
  cases h with
  | phis hid hb hp hphis =>
      have hf := within_of_resolvePhis hR ha.function ha.frame (List.mem_of_getElem? hb) hphis
      exact ⟨⟨ha.function, hf⟩, hr⟩
  | proceed hat hex =>
      obtain ⟨hf, hm, hsame⟩ :=
        (executes_of_execute hex).within hR ha.function ha.frame hat.has hr.memory
      exact ⟨⟨ha.function, hf⟩, hm, fun b hb => (hsame b hb).trans (hr.outside b hb), hr.natives⟩
  | goto hat hex => exact ⟨⟨ha.function, ha.frame.values, ha.frame.result⟩, hr⟩
  | exit hat hex =>
      have hv := (executes_of_execute hex).within hR ha.function ha.frame hat.has hr.memory
      exact ⟨⟨ha.function, ha.frame.values, hv⟩, hr⟩

/-- A call that makes a call passes on addresses of the region only, and waits inside. -/
theorem Context.Calls.within (hR : R.Closed c) {m : Memory} {a : Activation} {callee : Callee}
    {vs : List Value} {w : Caller} (ha : a.Within R) (hm : m.Within R)
    (h : c.Calls m a callee vs w) : w.Within R ∧ ∀ v ∈ vs, v.Within R := by
  cases h with
  | intro hat hex =>
      exact ⟨⟨ha.function, ha.frame⟩,
        (executes_of_execute hex).within hR ha.function ha.frame hat.has hm⟩

theorem Program.function?_of_target {p : Program} {callee : Callee} {f : Function}
    (h : p.target callee = .ok (.body f)) :
    ∃ id, callee = .function id ∧ p.function? id = some f := by
  unfold target at h
  split at h
  · cases h
  · rename_i id
    split at h
    · cases h
    · rename_i g hg
      split at h <;> cases h
      exact ⟨id, rfl, hg⟩

/-- A call that calls a function has an instruction that names it. -/
theorem Context.Calls.callsTo {m : Memory} {a : Activation} {id : FunctionId} {vs : List Value}
    {w : Caller} (h : c.Calls m a (.function id) vs w) : a.function.CallsTo id := by
  cases h with
  | intro hat hex =>
      obtain ⟨xs, hop, -⟩ := execute_eq_call hex
      exact ⟨_, xs, hat.has, hop⟩

/-- A function that a call inside the region calls is one of the region. -/
theorem Context.Calls.mem_functions (hR : R.Closed c) {m : Memory} {a : Activation}
    {callee : Callee} {vs : List Value} {w : Caller} {f : Function} (ha : a.Within R)
    (h : c.Calls m a callee vs w) (ht : c.program.target callee = .ok (.body f)) :
    f ∈ R.functions := by
  obtain ⟨id, rfl, hf⟩ := Program.function?_of_target ht
  exact hR.callees a.function ha.function id f h.callsTo hf

theorem Context.Raises.within {r r' : Resources} {a : Activation} {failure : Failure}
    (hr : r.Within R m₀) (h : c.Raises r a failure r') : r'.Within R m₀ := by
  cases h with
  | @native callee vs w name fault r' hc ht hn =>
      have hcall := hr.callNative name vs
      rwa [hn] at hcall
  | _ => exact hr

/-- The step lemma: one case for each thing that a step can do. -/
theorem Context.Step.within (hR : R.Closed c) {a : Activation} {ws : List Caller}
    {r : Resources} {s : State} (hs : State.Within ⟨.running a ws, r⟩ R m₀)
    (h : c.Step a ws r s) : s.Within R m₀ := by
  obtain ⟨ha, hws⟩ := hs.calls a ws rfl
  have hr : r.Within R m₀ := hs.resources
  have hwait : ∀ {w : Caller}, w.Within R → ∀ w' ∈ w :: ws, w'.Within R :=
    fun hw => List.forall_mem_cons.mpr ⟨hw, hws⟩
  cases h with
  | move h =>
      obtain ⟨ha', hr'⟩ := h.within hR ha hr
      exact State.within_running ha' hws hr'
  | call hc ht he =>
      obtain ⟨hw, hvs⟩ := hc.within hR ha hr.memory
      have ha' := Activation.within_of_enter (hc.mem_functions hR ha ht) hvs he
      exact State.within_running ha' (hwait hw) hr
  | @native callee vs w name v r' hc ht hn =>
      have hr' := hr.callNative name vs
      have hunit := (Resources.callNative_of_onlyWrites hr.natives name vs).2
      rw [hn] at hr' hunit
      have hv : v.Within R := hunit v rfl ▸ Value.within_unit R
      exact State.within_deliver hv (hwait (hc.within hR ha hr.memory).1) hr'
  | ret hb => exact State.within_deliver ha.frame.result hws hr
  | fail h => exact State.within_halt (h.within hr) _

/-- **A run that has started inside a closed region stays inside**, and changes no cell
outside. -/
theorem Context.within_run (hR : R.Closed c) {s : State} (hs : s.Within R m₀) (n : Nat) :
    (c.run n s).Within R m₀ := by
  refine run_induction (P := fun s => s.Within R m₀) ?_ n s hs
  intro a ws r s' hrunning hstep
  exact hstep.within hR hrunning

/-- A call of a function of the region with arguments of the region starts inside. -/
theorem Context.within_start {r : Resources} (hr : r.Within R m₀) {id : FunctionId}
    {args : List Value} (hid : ∀ f, c.program.function? id = some f → f ∈ R.functions)
    (hargs : ∀ v ∈ args, v.Within R) : (c.start r (.function id) args).Within R m₀ := by
  unfold start
  split
  · exact State.within_halt hr _
  · rename_i name ht
    have hcall := hr.callNative name args
    split
    · rename_i hn
      rw [hn] at hcall
      exact State.within_halt hcall _
    · rename_i hn
      rw [hn] at hcall
      exact State.within_halt hcall _
  · rename_i f ht
    obtain ⟨id', hid', hf⟩ := Program.function?_of_target ht
    cases hid'
    split
    · exact State.within_halt hr _
    · rename_i a he
      have ha := Activation.within_of_enter (hid f hf) hargs he
      exact State.within_running ha (fun w hw => absurd hw List.not_mem_nil) hr

end Runs

end SsaMachine
