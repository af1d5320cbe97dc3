import SsaMachine.Engine.Entry
import SsaMachine.Proofs.Life

set_option autoImplicit false

/-! # Sessions with an engine

The host keeps an engine for as long as it likes and asks it to do one thing after another. An
`Engine.Request` is one such thing, and `Engine.serveAll` is a whole session; whether a request
succeeds or fails, and where, shows only in the engine that it leaves behind.

`Engine.Becomes` says what any session can do to an engine: it runs, it creates the global
variables, or it registers a native. Invariants of engines are proved along it. The main
one is `Engine.globals_typed_of_session`: once the global variables have been created, each of
them holds a value of its declared type, for ever.

## Why the declared type survives

The memory never looks at declared types. It compares the kind of a new content with the kind of
the old one, so what it preserves is the kind of the *zero value* that the cell was created with.
The link to the declared type is made once, at creation: a type admits its own zero value
(`Ty.admits_of_zero`), and what a type admits depends on the kind alone.
-/

namespace SsaMachine

/-! ## Declared types and kinds -/

/-- A type admits its zero value. -/
theorem Ty.admits_of_zero {t : Ty} {v : Value} (h : t.zero = .ok v) : t.admits v = true := by
  have hzero : t.zero? = some v := by
    unfold zero at h
    split at h
    · rename_i hz
      cases h
      exact hz
    · cases h
  rw [admits_iff]
  unfold zero? at hzero
  unfold kind?
  split at hzero <;> cases hzero <;> simp_all [Value.kind, Word.ofInt]

/-- What a type admits depends on the kind of the value alone. -/
theorem Ty.admits_congr {t : Ty} {v w : Value} (hkind : w.kind = v.kind)
    (h : t.admits v = true) : t.admits w = true := by
  rw [admits_iff] at h ⊢
  rw [hkind]
  exact h

/-! ## Creating the global variables -/

/-- Each variable has a cell, which holds a value of the declared type. -/
def Globals.Typed (g : Globals) (vars : List Global) (m : Memory) : Prop :=
  ∀ x ∈ vars, ∃ a v, g.address x.name = .ok a ∧ m.content? a = some v ∧ x.ty.admits v = true

theorem Globals.Typed.keeps {g : Globals} {vars : List Global} {m m' : Memory}
    (h : g.Typed vars m) (hm : m.Keeps m') : g.Typed vars m' := by
  intro x hx
  obtain ⟨a, v, ha, hv, hadmits⟩ := h x hx
  obtain ⟨w, hw, hkind⟩ := hm a v hv
  exact ⟨a, w, ha, hw, Ty.admits_congr hkind hadmits⟩

theorem Globals.address_eq_ok_iff {g : Globals} {name : String} {a : Address} :
    g.address name = .ok a ↔ g.cells.lookup name = some a := by
  unfold address
  cases g.cells.lookup name <;> simp

/-- What creating the cells of some variables does: each variable has a new cell of its own, which
holds the zero value of the declared type, and nothing else changes. -/
structure Globals.Creates (vars : List Global) (cells : List (String × Address)) (m : Memory)
    (cells' : List (String × Address)) (m' : Memory) : Prop where
  kept : ∀ a w, m.content? a = some w → m'.content? a = some w
  others : ∀ name, name ∉ vars.map Global.name → cells'.lookup name = cells.lookup name
  zeros : ∀ x ∈ vars, ∃ a v, cells'.lookup x.name = some a ∧ m.content? a = none ∧
    x.ty.zero = .ok v ∧ m'.content? a = some v
  apart : ∀ x ∈ vars, ∀ y ∈ vars, x.name ≠ y.name →
    cells'.lookup x.name ≠ cells'.lookup y.name

theorem Globals.creates_of_allocate {cells cells' : List (String × Address)} {m m' : Memory}
    {vars : List Global} (hnd : (vars.map Global.name).Nodup)
    (h : allocate cells m vars = .ok (cells', m')) : Creates vars cells m cells' m' := by
  induction vars generalizing cells m with
  | nil =>
      cases h
      exact ⟨fun _ _ hw => hw, fun _ _ => rfl, fun x hx => absurd hx List.not_mem_nil,
        fun x hx => absurd hx List.not_mem_nil⟩
  | cons x xs ih =>
      rw [List.map_cons, List.nodup_cons] at hnd
      obtain ⟨hfresh, hnd⟩ := hnd
      unfold allocate at h
      split at h
      · cases h
      · rename_i v hzero
        have hrest : allocate ((x.name, (m.alloc v).1) :: cells) (m.alloc v).2 xs
            = .ok (cells', m') := h
        obtain ⟨hkept, hothers, hzeros, hapart⟩ := ih hnd hrest
        -- none of the cells created later takes the name of the first one
        have hfirst : cells'.lookup x.name = some (m.alloc v).1 := by
          rw [hothers x.name hfresh, List.lookup_cons, beq_self_eq_true]
        have hnew : ∀ y ∈ xs, cells'.lookup y.name ≠ some (m.alloc v).1 := by
          intro y hy heq
          obtain ⟨a, w, ha, hnone, -, -⟩ := hzeros y hy
          have haddr : a = (m.alloc v).1 := Option.some.inj (ha.symm.trans heq)
          rw [haddr, Memory.content?_alloc_self] at hnone
          cases hnone
        refine ⟨fun a w hw => hkept a w (Memory.content?_alloc_of_eq_some v hw), ?_, ?_, ?_⟩
        · intro name hname
          rw [List.map_cons, List.mem_cons, not_or] at hname
          have hne : (name == x.name) = false := by simpa using hname.1
          rw [hothers name hname.2, List.lookup_cons, hne]
        · intro y hy
          rcases List.mem_cons.mp hy with rfl | hmem
          · exact ⟨(m.alloc v).1, v, hfirst, Memory.content?_alloc_fst m v, hzero,
              hkept _ _ (Memory.content?_alloc_self m v)⟩
          · obtain ⟨a, w, ha, hnone, hw, hcontent⟩ := hzeros y hmem
            refine ⟨a, w, ha, ?_, hw, hcontent⟩
            cases hm : m.content? a with
            | none => rfl
            | some u =>
                rw [Memory.content?_alloc_of_eq_some v hm] at hnone
                cases hnone
        · intro y hy z hz hne
          rcases List.mem_cons.mp hy with rfl | hymem <;> rcases List.mem_cons.mp hz with rfl | hzmem
          · exact absurd rfl hne
          · rw [hfirst]
            exact (hnew z hzmem).symm
          · rw [hfirst]
            exact hnew y hymem
          · exact hapart y hymem z hzmem hne

/-- The variables that have been created are initialized and hold values of their types. -/
theorem Globals.setUp_eq_ok {g g' : Globals} {vars : List Global} {m m' : Memory}
    (hnd : (vars.map Global.name).Nodup) (hg : g.initialized = false)
    (h : g.setUp vars m = .ok (g', m')) : g'.initialized = true ∧ g'.Typed vars m' := by
  unfold setUp at h
  rw [hg] at h
  simp only [Bool.false_eq_true, if_false] at h
  split at h
  · cases h
  · rename_i hall
    cases h
    refine ⟨rfl, fun x hx => ?_⟩
    obtain ⟨a, v, ha, -, hzero, hv⟩ := (creates_of_allocate hnd hall).zeros x hx
    exact ⟨a, v, address_eq_ok_iff.mpr ha, hv, Ty.admits_of_zero hzero⟩

/-- Nothing happens when the variables have been created before. -/
theorem Globals.setUp_of_initialized {g g' : Globals} {vars : List Global} {m m' : Memory}
    (hg : g.initialized = true) (h : g.setUp vars m = .ok (g', m')) : g' = g ∧ m' = m := by
  unfold setUp at h
  rw [hg] at h
  cases h
  exact ⟨rfl, rfl⟩

/-! ## Requests -/

/-- What the host can ask of an engine. Runs are given a number of steps. -/
inductive Engine.Request where
  | call (fuel : Nat) (callee : Callee) (args : List Value)
  | callNamed (fuel : Nat) (name : String) (args : List Value)
  | runFunction (fuel : Nat) (name : String)
  | setGlobal (name : String) (v : Value)
  | setUpGlobals
  | register (name : String) (native : Native)

/-- The engine after a request, whether it has succeeded or failed. -/
def Engine.serve (e : Engine) : Request → Engine
  | .call fuel callee args => (e.call fuel callee args).2
  | .callNamed fuel name args => (e.callNamed fuel name args).2
  | .runFunction fuel name => (e.runFunction fuel name).2
  | .setGlobal name v => (e.setGlobal name v).2
  | .setUpGlobals => e.setUpGlobals.2
  | .register name native => e.register name native

/-- The engine after a session. -/
def Engine.serveAll (e : Engine) (rs : List Request) : Engine :=
  rs.foldl Engine.serve e

/-- All that a session can do to an engine, if it registers natives of the sort `P` only. -/
inductive Engine.Becomes (P : Native → Prop) (e₀ : Engine) : Engine → Prop
  | refl : Becomes P e₀ e₀
  | run {e : Engine} {r : Resources} (h : Becomes P e₀ e) (hr : e.resources.Evolves r) :
      Becomes P e₀ { e with resources := r }
  | setUp {e : Engine} {g : Globals} {m : Memory} (h : Becomes P e₀ e)
      (hs : e.globals.setUp e.program.globals e.resources.memory = .ok (g, m)) :
      Becomes P e₀ { e with globals := g, resources.memory := m }
  | register {e : Engine} (h : Becomes P e₀ e) (name : String) {n : Native} (hn : P n) :
      Becomes P e₀ (e.register name n)

section Sessions

variable {P : Native → Prop} {e₀ e : Engine}

theorem Engine.Becomes.call (h : e₀.Becomes P e) (fuel : Nat) (callee : Callee)
    (args : List Value) : e₀.Becomes P (e.call fuel callee args).2 :=
  h.run (e.context.evolves_run e.resources callee args fuel)

theorem Engine.Becomes.setUpGlobals (h : e₀.Becomes P e) : e₀.Becomes P e.setUpGlobals.2 := by
  unfold Engine.setUpGlobals
  split
  · exact h
  · rename_i hs
    exact h.setUp hs

theorem Engine.Becomes.setGlobal (h : e₀.Becomes P e) (name : String) (v : Value) :
    e₀.Becomes P (e.setGlobal name v).2 := by
  unfold Engine.setGlobal
  split
  · exact h
  · rename_i m hwrite
    obtain ⟨a, -, hm⟩ := bind_eq_ok hwrite
    exact h.run (.store .refl hm)

theorem Engine.Becomes.runFunction (h : e₀.Becomes P e) (fuel : Nat) (name : String) :
    e₀.Becomes P (e.runFunction fuel name).2 := by
  unfold Engine.runFunction
  -- the program has a defect, the function is not there (twice), or it takes arguments
  split
  · exact h
  · split
    · exact h
    · split
      · exact h
      · split
        · exact h
        · -- the variables are created first, and stay when the run after it fails
          have hset := h.setUpGlobals
          split
          · rename_i heq
            rwa [heq] at hset
          · rename_i heq
            rw [heq] at hset
            exact hset.call _ _ _

theorem Engine.Becomes.serve (h : e₀.Becomes P e) (r : Request)
    (hr : ∀ name n, r = .register name n → P n) : e₀.Becomes P (e.serve r) := by
  cases r with
  | call fuel callee args => exact h.call fuel callee args
  | callNamed fuel name args =>
      simp only [Engine.serve, Engine.callNamed]
      split
      · exact h.call _ _ _
      · exact h.call _ _ _
  | runFunction fuel name => exact h.runFunction fuel name
  | setGlobal name v => exact h.setGlobal name v
  | setUpGlobals => exact h.setUpGlobals
  | register name n => exact h.register name (hr name n rfl)

theorem Engine.Becomes.serveAll (h : e₀.Becomes P e) (rs : List Request)
    (hrs : ∀ name n, .register name n ∈ rs → P n) : e₀.Becomes P (e.serveAll rs) := by
  induction rs generalizing e with
  | nil => exact h
  | cons r rs ih =>
      refine ih (h.serve r ?_) fun name n hmem => hrs name n (List.mem_cons_of_mem _ hmem)
      rintro name n rfl
      exact hrs name n List.mem_cons_self

/-! ## Invariants of sessions -/

theorem Engine.Becomes.program_eq (h : e₀.Becomes P e) :
    e.program = e₀.program := by
  induction h with
  | refl => rfl
  | run _ _ ih => exact ih
  | setUp _ _ ih => exact ih
  | register _ _ _ ih => exact ih

/-- The cells of the global variables are chosen once. -/
theorem Engine.Becomes.globals_eq (h : e₀.Becomes P e)
    (hinit : e₀.globals.initialized = true) : e.globals = e₀.globals := by
  induction h with
  | refl => rfl
  | run _ _ ih => exact ih
  | setUp _ hs ih =>
      -- a second creation does nothing
      refine (Globals.setUp_of_initialized ?_ hs).1.trans ih
      rw [ih]
      exact hinit
  | register _ _ _ ih => exact ih

theorem Engine.Becomes.registry (h : e₀.Becomes P e)
    (hall : e₀.resources.registry.All P) : e.resources.registry.All P := by
  induction h with
  | refl => exact hall
  | run _ hr ih => exact hr.registry ih
  | setUp _ _ ih => exact ih
  | register _ name hn ih => exact ih.register name hn

/-- Wherever a session that started without global variables has created them, each name leads
to a cell. No assumption on natives is needed for this. -/
theorem Engine.Becomes.located (h : e₀.Becomes P e)
    (hnd : (e₀.program.globals.map Global.name).Nodup)
    (hfirst : e₀.globals.initialized = false) (hinit : e.globals.initialized = true) :
    ∀ x ∈ e.program.globals, ∃ a, e.globals.address x.name = .ok a := by
  induction h with
  | refl =>
      rw [hfirst] at hinit
      cases hinit
  | run _ _ ih => exact ih hinit
  | @setUp e g m hprev hs ih =>
      cases hbefore : e.globals.initialized with
      | true =>
          obtain ⟨rfl, -⟩ := Globals.setUp_of_initialized hbefore hs
          exact ih hbefore
      | false =>
          have hnames : (e.program.globals.map Global.name).Nodup := by
            rw [hprev.program_eq]
            exact hnd
          intro x hx
          obtain ⟨a, -, ha, -⟩ := (Globals.setUp_eq_ok hnames hbefore hs).2 x hx
          exact ⟨a, ha⟩
  | register _ _ _ ih => exact ih hinit

end Sessions

/-- The invariant of typed sessions: created global variables hold values of their types. -/
theorem Engine.Becomes.typed {e₀ e : Engine} (h : e₀.Becomes Native.Disciplined e)
    (hall : e₀.resources.registry.All Native.Disciplined)
    (hnd : (e₀.program.globals.map Global.name).Nodup)
    (hfirst : e₀.globals.initialized = false) (hinit : e.globals.initialized = true) :
    e.globals.Typed e.program.globals e.resources.memory := by
  induction h with
  | refl =>
      rw [hfirst] at hinit
      cases hinit
  | run hprev hr ih => exact (ih hinit).keeps (hr.keeps (hprev.registry hall))
  | @setUp e g m hprev hs ih =>
      cases hbefore : e.globals.initialized with
      | true =>
          obtain ⟨rfl, rfl⟩ := Globals.setUp_of_initialized hbefore hs
          exact ih hbefore
      | false =>
          have hnames : (e.program.globals.map Global.name).Nodup := by
            rw [hprev.program_eq]
            exact hnd
          exact (Globals.setUp_eq_ok hnames hbefore hs).2
  | register _ _ _ ih => exact ih hinit

theorem Engine.initialized_of_setUpGlobals {e e' : Engine} (h : e.setUpGlobals = (.ok (), e')) :
    e'.globals.initialized = true := by
  unfold Engine.setUpGlobals at h
  split at h
  · cases h
  · rename_i g m hs
    cases h
    unfold Globals.setUp at hs
    split at hs
    · rename_i hinit
      cases hs
      exact hinit
    · split at hs <;> cases hs
      rfl

/-- A session in two parts, between which the global variables have been created. -/
theorem Engine.Becomes.prepared {P : Native → Prop} {e₀ e : Engine} {before : List Request}
    (after : List Request) (hbefore : ∀ name n, .register name n ∈ before → P n)
    (hafter : ∀ name n, .register name n ∈ after → P n)
    (hset : (e₀.serveAll before).setUpGlobals = (.ok (), e)) :
    e₀.Becomes P (e.serveAll after) ∧ (e.serveAll after).globals.initialized = true := by
  have hmid : e₀.Becomes P e := by
    have hfirst : e₀.Becomes P (e₀.serveAll before) := .serveAll .refl before hbefore
    have hstep := hfirst.setUpGlobals
    rwa [hset] at hstep
  have hinit := initialized_of_setUpGlobals hset
  have hrest : e.Becomes P (e.serveAll after) := .serveAll .refl after hafter
  refine ⟨hmid.serveAll after hafter, ?_⟩
  rw [hrest.globals_eq hinit]
  exact hinit

/-- **Global variables keep their types.** In every session on a verified program, once the
global variables have been created, each can be read by its name and holds a value that its
declared type admits, whatever is asked of the engine afterwards and whether or not it
succeeds. -/
theorem Engine.globals_typed_of_session {p : Program} (hp : p.verify = .ok ()) (sink : Sink)
    (before after : List Request)
    (hnatives : ∀ name n, .register name n ∈ before ++ after → n.Disciplined)
    {e : Engine} (hset : ((Engine.new p sink).serveAll before).setUpGlobals = (.ok (), e))
    {x : Global} (hx : x ∈ p.globals) :
    ∃ v, (e.serveAll after).global x.name = .ok v ∧ x.ty.admits v = true := by
  obtain ⟨hbecomes, hinit⟩ := Becomes.prepared after
    (fun name n h => hnatives name n (List.mem_append_left _ h))
    (fun name n h => hnatives name n (List.mem_append_right _ h)) hset
  have hstandard : (Engine.new p sink).resources.registry.All Native.Disciplined :=
    Registry.all_standard Native.disciplined_writing
  have htyped := hbecomes.typed hstandard (Program.wellFormed_of_verify hp).globals_nodup rfl hinit
  rw [hbecomes.program_eq] at htyped
  obtain ⟨a, v, ha, hv, hadmits⟩ := htyped x hx
  refine ⟨v, ?_, hadmits⟩
  have hread : (e.serveAll after).globals.read (e.serveAll after).resources.memory x.name
      = .ok v := by
    unfold Globals.read
    rw [ha]
    exact Memory.read_eq_ok_iff.mpr hv
  unfold Engine.global
  rw [hread]

/-- A counter and a pointer, and a function that stores into the counter and then into the cell
that the pointer leads to. -/
def pointerProgram : Program where
  globals := [⟨"counter", .int .int⟩, ⟨"link", .pointer (.int .int)⟩]
  functions := [⟨"main", [],
    [⟨0,
      [⟨none, .store (.global 0) (.int .int 5)⟩,
       ⟨some 0, .unary .load (.global 1)⟩,
       ⟨none, .store (.value 0) (.int .int 7)⟩,
       ⟨none, .ret []⟩], [], []⟩], 0, 1⟩]

/-- A session on that program: a run before the variables exist; afterwards a native is
registered, a run stores into the counter and then fails at the null pointer, and the host
assigns to the pointer, once with a value of another kind. -/
theorem Engine.globals_typed_of_session_pointerProgram :
    ∃ v, ((((Engine.new pointerProgram .unlimited).serveAll
        [.call 9 (.function 0) []]).setUpGlobals.2).serveAll
          [.register "alloc" .allocate, .call 9 (.function 0) [],
           .setGlobal "link" (.string "counter"), .setGlobal "link" (.address (.cell 0)),
           .callNamed 9 "alloc" [.bool true], .runFunction 9 "main"]).global "counter" = .ok v ∧
      (Ty.int .int).admits v = true := by
  refine globals_typed_of_session (p := pointerProgram) rfl .unlimited [.call 9 (.function 0) []]
    _ ?_ rfl List.mem_cons_self
  intro name n hmem
  simp only [List.cons_append, List.nil_append, List.mem_cons, reduceCtorEq, Request.register.injEq,
    List.not_mem_nil, or_false, false_or] at hmem
  obtain ⟨rfl, rfl⟩ := hmem
  intro call args m s
  exact .alloc .refl _

end SsaMachine
