import SsaMachine.Proofs.GlobalStore
import SsaMachine.Proofs.Location

set_option autoImplicit false

/-! # Constants fit where their type is declared

Five functions decide, each on its own, what a declared type stands for: `Ty.zero` makes its zero
value, `Constant.materialize` the value of a literal and `Constant.read` a constant from a text;
`Ty.admits` checks a value, and the memory compares kinds without looking at types at all. That they
agree is `Ty.Coherent`, which holds of every type (`Ty.coherent`).

The agreement goes through `Ty.kind?`, the kind that the values of a type are of. Zero values and
constants are of that kind (`Ty.admits_of_zero`, `Constant.admits_of_materialize`), and a type
without a kind has neither.

What follows for programs is `Constant.fit_where_declared`: no constant is refused at a place of its
type, be it a global variable, for as long as the engine lives, or a parameter.
-/

namespace SsaMachine

/-! ## Types and their constants -/

/-- A type admits the values of the constants that are declared at it. -/
theorem Constant.admits_of_materialize {k : Constant} {v : Value} (h : k.materialize = .ok v) :
    k.ty.admits v = true := by
  rw [Ty.admits_iff, Ty.kind?]
  unfold materialize at h
  -- one goal for each pair of a literal and a type; floating-point literals at integer types give two
  split at h
  all_goals try split at h
  all_goals cases h
  all_goals simp_all [Value.kind, Word.ofInt]

/-- The zero value of a type is the value of a constant: of the literal for falsehood, for the number
zero, for the empty text or for the null pointer. -/
theorem Ty.exists_literal_of_zero {t : Ty} {v : Value} (h : t.zero = .ok v) :
    ∃ literal, Constant.materialize ⟨t, literal⟩ = .ok v := by
  unfold zero zero? at h
  unfold Constant.materialize
  cases ht : t.defaulted with
  | bool =>
      simp only [ht] at h ⊢
      exact ⟨.bool false, h⟩
  | int i =>
      simp only [ht] at h ⊢
      exact ⟨.int 0, h⟩
  | float f =>
      simp only [ht] at h ⊢
      exact ⟨.float 0, h⟩
  | string =>
      simp only [ht] at h ⊢
      exact ⟨.string "", h⟩
  | pointer target =>
      simp only [ht] at h ⊢
      exact ⟨.nil, h⟩
  | complex part => simp [ht] at h
  | untyped sort => simp [ht] at h

/-- A type that admits a value has a zero value. -/
theorem Ty.hasZero_of_admits {t : Ty} {v : Value} (h : t.admits v = true) : t.HasZero := by
  rw [admits_iff, kind?] at h
  unfold HasZero zero zero?
  cases ht : t.defaulted with
  | complex part => simp [ht] at h
  | untyped sort => simp [ht] at h
  | _ => exact ⟨_, rfl⟩

/-- The types without a zero value are the complex ones and that of the untyped nil. -/
theorem Ty.hasZero_iff {t : Ty} :
    t.HasZero ↔ (∀ part, t ≠ .complex part) ∧ t ≠ .untyped .nil := by
  cases t with
  | complex part => simp [HasZero, zero, zero?, defaulted]
  | untyped sort => cases sort <;> simp [HasZero, zero, zero?, defaulted]
  | _ => simp [HasZero, zero, zero?, defaulted]

/-- What can be read as a constant has a value. -/
theorem Constant.materialize_of_read {t : Ty} {s : String} {k : Constant} (h : read t s = .ok k) :
    k.ty = t ∧ ∃ v, k.materialize = .ok v := by
  unfold read at h
  cases hread : readLiteral? t s with
  | none => simp [hread] at h
  | some literal =>
      simp only [hread, Except.ok.injEq] at h
      subst h
      refine ⟨rfl, ?_⟩
      unfold readLiteral? at hread
      unfold materialize
      cases ht : t.defaulted with
      | bool =>
          simp only [ht] at hread
          obtain ⟨b, -, rfl⟩ := Option.map_eq_some_iff.mp hread
          exact ⟨_, rfl⟩
      | int i =>
          simp only [ht] at hread
          obtain ⟨n, -, rfl⟩ := Option.map_eq_some_iff.mp hread
          exact ⟨_, rfl⟩
      | float f =>
          simp only [ht] at hread
          obtain ⟨x, -, rfl⟩ := Option.map_eq_some_iff.mp hread
          exact ⟨_, rfl⟩
      | string =>
          simp only [ht] at hread
          cases hread
          exact ⟨_, rfl⟩
      | pointer target =>
          simp only [ht] at hread
          split at hread <;> cases hread
          exact ⟨_, rfl⟩
      | complex part => simp [ht] at hread
      | untyped sort => simp [ht] at hread

/-- What a type admits is one kind. -/
theorem Ty.admits_iff_sameKind {t : Ty} {v w : Value} (h : t.admits v = true) :
    t.admits w = true ↔ v.sameKind w = true := by
  rw [admits_iff] at h
  rw [admits_iff, h, Option.some.injEq, Value.sameKind_iff]

/-- Constants, zero values and checks agree on what the type stands for. -/
structure Ty.Coherent (t : Ty) : Prop where
  constant : ∀ literal v, Constant.materialize ⟨t, literal⟩ = .ok v → t.admits v = true
  zero : ∀ v, t.zero = .ok v → t.admits v = true
  zero_iff : (∃ v, t.zero = .ok v) ↔ ∃ literal v, Constant.materialize ⟨t, literal⟩ = .ok v
  zero_exists : (∃ v, t.zero = .ok v) ↔ (∀ part, t ≠ .complex part) ∧ t ≠ .untyped .nil
  read : ∀ s k, Constant.read t s = .ok k → k.ty = t ∧ ∃ v, k.materialize = .ok v
  kinds : ∀ v w, t.admits v = true → (t.admits w = true ↔ v.sameKind w = true)

/-- **Every type is coherent.** -/
theorem Ty.coherent (t : Ty) : t.Coherent where
  constant _ _ h := Constant.admits_of_materialize h
  zero _ h := admits_of_zero h
  zero_iff := by
    constructor
    · rintro ⟨v, hv⟩
      obtain ⟨literal, h⟩ := exists_literal_of_zero hv
      exact ⟨literal, v, h⟩
    · rintro ⟨literal, v, h⟩
      exact hasZero_of_admits (Constant.admits_of_materialize h)
  zero_exists := hasZero_iff
  read _ _ h := Constant.materialize_of_read h
  kinds _ _ h := admits_iff_sameKind h

/-! ## Constants and global variables -/

/-- A variable of a type takes every value that the type admits. -/
theorem Globals.Typed.write_of_admits {g : Globals} {vars : List Global} {m : Memory} {x : Global}
    {v : Value} (h : g.Typed vars m) (hx : x ∈ vars) (hv : x.ty.admits v = true) :
    ∃ a m', g.address x.name = .ok a ∧ m.write a v = .ok m' ∧ g.read m' x.name = .ok v := by
  obtain ⟨a, old, ha, hold, hadmits⟩ := h x hx
  have hsame : old.sameKind v = true := (Ty.admits_iff_sameKind hadmits).mp hv
  cases a with
  | null => cases hold
  | cell id =>
      have hwrite : m.write (.cell id) v = .ok ⟨m.cells.setIfInBounds id v⟩ :=
        Memory.write_eq_ok_iff.mpr ⟨id, old, rfl, hold, hsame, rfl⟩
      refine ⟨_, _, ha, hwrite, ?_⟩
      unfold read
      rw [ha]
      exact Memory.read_eq_ok_iff.mpr (Memory.content?_write_self hwrite)

/-- The variable, which has the number `id`, takes every constant that is declared at its type: the
instruction that stores the constant fails only if the constant has no value, and never because the
types do not match; if there is a value, then the variable has this value after the instruction, and
after an assignment by the host. -/
structure Engine.TakesConstants (e : Engine) (id : GlobalId) (x : Global) : Prop where
  fault : ∀ (k : Constant) f dest fault, k.ty = x.ty →
    e.context.execute f e.resources.memory ⟨dest, .store (.global id) (.constant k)⟩
        = .error fault →
      k.materialize = .error fault ∧ ∀ c l r, fault ≠ .typeMismatch c l r
  store : ∀ (k : Constant) f dest v, k.ty = x.ty → k.materialize = .ok v →
    ∃ m, e.context.execute f e.resources.memory ⟨dest, .store (.global id) (.constant k)⟩
        = .ok (.proceed f m) ∧ e.globals.read m x.name = .ok v
  assign : ∀ (k : Constant) v, k.ty = x.ty → k.materialize = .ok v →
    ∃ e', e.setGlobal x.name v = (.ok (), e') ∧ e'.global x.name = .ok v

/-- Storing into a variable that has a cell, unfolded. -/
theorem Context.execute_store_global {c : Context} {id : GlobalId} {x : Global} {a : Address}
    (hx : c.program.global? id = some x) (ha : c.globals.address x.name = .ok a) (f : Frame)
    (m : Memory) (dest : Option ValueId) (y : Operand) :
    c.execute f m ⟨dest, .store (.global id) y⟩ =
      (c.eval f y >>= fun v => m.write a v >>= fun m' => .ok (.proceed f m')) := by
  have haddr : c.evalAddress f (.global id) = .ok a := by
    simp only [evalAddress, eval, globalAddress, hx, ha]
    rfl
  unfold execute
  simp only [haddr]
  rfl

section Typed

variable {e : Engine} {id : GlobalId} {x : Global} {k : Constant} {v : Value}

theorem Globals.Typed.write_constant {g : Globals} {vars : List Global} {m : Memory}
    (h : g.Typed vars m) (hx : x ∈ vars) (hk : k.ty = x.ty) (hv : k.materialize = .ok v) :
    ∃ a m', g.address x.name = .ok a ∧ m.write a v = .ok m' ∧ g.read m' x.name = .ok v := by
  refine h.write_of_admits hx ?_
  rw [← hk]
  exact Constant.admits_of_materialize hv

theorem Engine.execute_store_constant (h : e.globals.Typed e.program.globals e.resources.memory)
    (hx : e.program.global? id = some x) (hk : k.ty = x.ty) (hv : k.materialize = .ok v)
    (f : Frame) (dest : Option ValueId) :
    ∃ m, e.context.execute f e.resources.memory ⟨dest, .store (.global id) (.constant k)⟩
        = .ok (.proceed f m) ∧ e.globals.read m x.name = .ok v := by
  obtain ⟨a, m, ha, hm, hread⟩ := h.write_constant (List.mem_of_getElem? hx) hk hv
  refine ⟨m, ?_, hread⟩
  rw [Context.execute_store_global hx ha, Context.eval, hv]
  show (e.resources.memory.write a v >>= fun m' => Except.ok (Effect.proceed f m')) = _
  rw [hm]
  rfl

theorem Engine.execute_store_constant_eq_error
    (h : e.globals.Typed e.program.globals e.resources.memory)
    (hx : e.program.global? id = some x) (hk : k.ty = x.ty) {f : Frame} {dest : Option ValueId}
    {fault : Fault}
    (hfault : e.context.execute f e.resources.memory ⟨dest, .store (.global id) (.constant k)⟩
      = .error fault) : k.materialize = .error fault := by
  cases hv : k.materialize with
  | ok v =>
      obtain ⟨m, hok, -⟩ := execute_store_constant h hx hk hv f dest
      rw [hok] at hfault
      cases hfault
  | error fault' =>
      obtain ⟨a, -, ha, -⟩ := h x (List.mem_of_getElem? hx)
      rw [Context.execute_store_global hx ha, Context.eval, hv] at hfault
      cases hfault
      rfl

theorem Engine.setGlobal_constant (h : e.globals.Typed e.program.globals e.resources.memory)
    (hx : x ∈ e.program.globals) (hk : k.ty = x.ty) (hv : k.materialize = .ok v) :
    ∃ e', e.setGlobal x.name v = (.ok (), e') ∧ e'.global x.name = .ok v := by
  obtain ⟨a, m, ha, hm, hread⟩ := h.write_constant hx hk hv
  have hwrite : e.globals.write e.resources.memory x.name v = .ok m := by
    unfold Globals.write
    rw [ha]
    exact hm
  refine ⟨_, by rw [setGlobal, hwrite], ?_⟩
  simp only [global, hread]

theorem Engine.takesConstants_of_typed (h : e.globals.Typed e.program.globals e.resources.memory)
    (hx : e.program.global? id = some x) : e.TakesConstants id x where
  fault k f dest fault hk hfault := by
    have hmat := execute_store_constant_eq_error h hx hk hfault
    refine ⟨hmat, ?_⟩
    simp [Constant.materialize_eq_error hmat]
  store k f dest v hk hv := execute_store_constant h hx hk hv f dest
  assign k v hk hv := setGlobal_constant h (List.mem_of_getElem? hx) hk hv

end Typed

/-- The engine is at some point of a session on the program, after the global variables have been
created; that may be in the middle of a run. All natives that have been registered change cells only
through the operations of the memory. -/
def Engine.Prepared (p : Program) (e : Engine) : Prop :=
  ∃ sink before after e₁,
    (∀ name n, .register name n ∈ before ++ after → n.Disciplined) ∧
    ((Engine.new p sink).serveAll before).setUpGlobals = (.ok (), e₁) ∧ e = e₁.serveAll after

theorem Engine.Prepared.typed {p : Program} {e : Engine} (h : e.Prepared p)
    (hnd : (p.globals.map Global.name).Nodup) :
    e.program = p ∧ e.globals.Typed e.program.globals e.resources.memory := by
  obtain ⟨sink, before, after, e₁, hnatives, hset, rfl⟩ := h
  obtain ⟨hbecomes, hinit⟩ := Becomes.prepared after
    (fun name n h => hnatives name n (List.mem_append_left _ h))
    (fun name n h => hnatives name n (List.mem_append_right _ h)) hset
  exact ⟨hbecomes.program_eq,
    hbecomes.typed (Registry.all_standard Native.disciplined_writing) hnd rfl hinit⟩

/-! ## Constants and parameters -/

/-- Whatever the other arguments are, a call is not refused for an argument that is of the kind of a
constant declared at the type of the parameter. -/
theorem Constant.enter_ne_argumentType {k : Constant} {v : Value} (h : k.materialize = .ok v)
    (f : Function) (args : List Value) (function param : String) :
    Activation.enter f args ≠ .error (.argumentType function param k.ty v.kind) := by
  intro he
  rcases Activation.enter_eq_error he with ⟨-, heq⟩ | ⟨id, -, -, heq⟩ | ⟨q, arg, -, hno, heq⟩
  · cases heq
  · cases heq
  · obtain ⟨-, -, hty, hkind⟩ := Fault.argumentType.inj heq
    have hadmits : q.ty.admits arg = true := by
      rw [← hty]
      exact Ty.admits_congr hkind.symm (admits_of_materialize h)
    rw [hadmits] at hno
    cases hno

theorem Context.evalAll_constants {ks : List Constant} {args : List Value}
    (h : List.Forall₂ (fun k v => k.materialize = .ok v) ks args) (c : Context) (f : Frame) :
    c.evalAll f (ks.map .constant) = .ok args := by
  induction h with
  | nil => rfl
  | cons hv _ ih =>
      rw [List.map_cons, evalAll, eval, hv, ih]
      rfl

/-- The values of constants are admitted by parameters of the types that they are declared at. -/
theorem Constant.forall₂_admits {params : List Param} {ks : List Constant} {args : List Value}
    (hdecl : List.Forall₂ (fun param k => k.ty = param.ty) params ks)
    (hvals : List.Forall₂ (fun k v => k.materialize = .ok v) ks args) :
    List.Forall₂ (fun param arg => param.ty.admits arg = true) params args := by
  induction hdecl generalizing args with
  | nil =>
      cases hvals
      exact .nil
  | cons hk _ ih =>
      cases hvals with
      | cons hv hrest => exact .cons (hk ▸ admits_of_materialize hv) (ih hrest)

/-- The callee, which is the function `f` with a body, takes every constant that is declared at the
type of the parameter it is passed to: the call instruction fails before the call only if a constant
has no value, and if all of them have one, then the callee is entered, also when the call is
made by the host. -/
structure Context.PassesConstants (c : Context) (callee : Callee) (f : Function) : Prop where
  fault : ∀ (ks : List Constant) frame m dest fault,
    c.execute frame m ⟨dest, .call callee (ks.map .constant)⟩ = .error fault →
      (∃ k ∈ ks, k.materialize = .error fault) ∧
        ∀ function param ty kind, fault ≠ .argumentType function param ty kind
  call : ∀ (ks : List Constant) (args : List Value),
    List.Forall₂ (fun param k => k.ty = param.ty) f.params ks →
    List.Forall₂ (fun k v => k.materialize = .ok v) ks args →
      (∀ frame m dest, c.execute frame m ⟨dest, .call callee (ks.map .constant)⟩
        = .ok (.call callee args)) ∧
      ∃ top, top.function = f ∧
        (∀ r w ws, c.invoke r callee args w ws = ⟨.running top (w :: ws), r⟩) ∧
        ∀ r, c.start r callee args = ⟨.running top [], r⟩

theorem Context.passesConstants {c : Context} {callee : Callee} {f : Function}
    (hp : c.program.WellFormed) (ht : c.program.target callee = .ok (.body f)) :
    c.PassesConstants callee f := by
  obtain ⟨hmem, hbody⟩ := Program.target_eq_body ht
  refine ⟨fun ks frame m dest fault h => ?_, fun ks args hdecl hvals => ⟨fun frame m dest => ?_, ?_⟩⟩
  · rcases bind_eq_error h with heval | ⟨vs, -, hrest⟩
    · obtain ⟨x, hx, hfault⟩ := evalAll_eq_error heval
      obtain ⟨k, hk, rfl⟩ := List.mem_map.mp hx
      have hmat : k.materialize = .error fault := hfault
      refine ⟨⟨k, hk, hmat⟩, ?_⟩
      simp [Constant.materialize_eq_error hmat]
    · cases hrest
  · simp only [execute, evalAll_constants hvals]
    rfl
  · obtain ⟨top, he⟩ :=
      (hp.bodies f hmem hbody).enter_of_admits (Constant.forall₂_admits hdecl hvals)
    refine ⟨top, (Activation.enter_eq_ok he).1, fun r w ws => ?_, fun r => ?_⟩
    · simp only [invoke, ht, he]
    · simp only [start, ht, he]

/-! ## Constants fit -/

/-- **Constants fit where their type is declared.** For every type, the values of its constants and
its zero value are admitted; it has a zero value exactly if it has a constant with a value, which is
so unless it is a complex type or that of the untyped nil; what is read as a constant of the type has
a value; and the type admits all values of one kind, or none.

So take a program whose global variables have different names, which verification makes sure of, and
an engine at any point of a session after the variables have been created: each variable takes all
constants declared at its type. And no call is ever refused for an argument of the kind of a
constant declared at the type of the parameter; in a verified program, constants of the types of the
parameters are all that is needed to enter a function. -/
theorem Constant.fit_where_declared :
    (∀ t : Ty, t.Coherent) ∧
      (∀ (p : Program) (e : Engine), (p.globals.map Global.name).Nodup → e.Prepared p →
        ∀ id x, p.global? id = some x → e.TakesConstants id x) ∧
      (∀ (k : Constant) v, k.materialize = .ok v → ∀ f args function param,
        Activation.enter f args ≠ .error (.argumentType function param k.ty v.kind)) ∧
      ∀ (c : Context) callee f, c.program.verify = .ok () →
        c.program.target callee = .ok (.body f) → c.PassesConstants callee f := by
  refine ⟨Ty.coherent, fun p e hnd he id x hx => ?_, fun k v h => enter_ne_argumentType h,
    fun c callee f hp => Context.passesConstants (Program.wellFormed_of_verify hp)⟩
  obtain ⟨rfl, htyped⟩ := he.typed hnd
  exact Engine.takesConstants_of_typed htyped hx

/-- An engine after a run that has failed at the null pointer. -/
def pointerEngine : Engine :=
  (Engine.new pointerProgram .unlimited).setUpGlobals.2.serve (.call 9 (.function 0) [])

/-- The pointer variable of that engine takes the null pointer; and the function that divides takes
a number that is too large for its parameter. -/
theorem Constant.fit_where_declared_samples :
    (∃ m, pointerEngine.context.execute (.start 0 0) pointerEngine.resources.memory
        ⟨none, .store (.global 1) (.constant ⟨.pointer (.int .int), .nil⟩)⟩
          = .ok (.proceed (.start 0 0) m) ∧
      pointerEngine.globals.read m "link" = .ok (.address .null)) ∧
      ∃ top, ∀ r, (Engine.new nestedDivision .unlimited).context.start r (.function 1)
        [.int (.ofInt .int 1000000000000000000005)] = ⟨.running top [], r⟩ := by
  obtain ⟨-, hglobals, -, hcalls⟩ := fit_where_declared
  refine ⟨?_, ?_⟩
  · have htakes := hglobals pointerProgram pointerEngine (by decide)
      ⟨.unlimited, [], [.call 9 (.function 0) []], _, by simp, rfl, rfl⟩ 1 _ rfl
    exact htakes.store ⟨.pointer (.int .int), .nil⟩ _ none _ rfl rfl
  · have hpasses := hcalls (Engine.new nestedDivision .unlimited).context (.function 1) _ rfl rfl
    obtain ⟨-, top, -, -, hstart⟩ := hpasses.call [⟨.int .int, .int 1000000000000000000005⟩] _
      (.cons rfl .nil) (.cons rfl .nil)
    exact ⟨top, hstart⟩

end SsaMachine
