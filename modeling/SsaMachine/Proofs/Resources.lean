import SsaMachine.Native.Registry

set_option autoImplicit false

/-! # What happens to cells, natives and output

A run works on cells, on the registered natives and on the sink. It touches them in two ways
only: an instruction stores a value, or a native is called (`Resources.Evolves`). What a native
does is up to the host, so statements about runs make assumptions on the natives, and these come
in two forms:

* `Native.Avoids`: the native never answers with certain faults.
* `Native.Disciplined`: the native creates and changes cells only through the operations of the
  memory. A native cannot do otherwise unless the host gives it other means.

Both are assumed of all natives of a registry (`Registry.All`), and no run registers a native or
replaces one, so they hold until the end of a run if they hold at its start.

A cell keeps the kind of its content, whoever stores into it (`Memory.Keeps`).
-/

namespace SsaMachine

/-! ## Cells keep their kinds -/

/-- Every cell of the first memory is in the second, with a content of the same kind. -/
def Memory.Keeps (m m' : Memory) : Prop :=
  ∀ a v, m.content? a = some v → ∃ w, m'.content? a = some w ∧ w.kind = v.kind

theorem Memory.Keeps.refl (m : Memory) : m.Keeps m :=
  fun _ v h => ⟨v, h, rfl⟩

theorem Memory.Keeps.trans {m m' m'' : Memory} (h : m.Keeps m') (h' : m'.Keeps m'') :
    m.Keeps m'' := by
  intro a v hv
  obtain ⟨w, hw, hkind⟩ := h a v hv
  obtain ⟨x, hx, hkind'⟩ := h' a w hw
  exact ⟨x, hx, hkind'.trans hkind⟩

theorem Memory.keeps_alloc (m : Memory) (v : Value) : m.Keeps (m.alloc v).2 :=
  fun _ w h => ⟨w, content?_alloc_of_eq_some v h, rfl⟩

/-- A store replaces a content by one of the same kind, and leaves all others as they are. -/
theorem Memory.keeps_write {m m' : Memory} {a : Address} {v : Value}
    (h : m.write a v = .ok m') : m.Keeps m' := by
  intro b w hw
  by_cases hb : b = a
  · subst hb
    -- the store has compared the kinds of the old and the new content
    refine ⟨v, content?_write_self h, ?_⟩
    obtain ⟨id, old, rfl, hold, hkind, -⟩ := write_eq_ok_iff.mp h
    have heq : old = w := Option.some.inj (hold.symm.trans hw)
    rw [← heq]
    exact (Value.sameKind_iff.mp hkind).symm
  · exact ⟨w, (content?_write_of_ne h hb).trans hw, rfl⟩

/-- The second memory comes from the first by creating cells and by stores. -/
inductive Memory.Develops (m₀ : Memory) : Memory → Prop
  | refl : Develops m₀ m₀
  | alloc {m : Memory} (h : Develops m₀ m) (v : Value) : Develops m₀ (m.alloc v).2
  | write {m m' : Memory} {a : Address} {v : Value} (h : Develops m₀ m)
      (hw : m.write a v = .ok m') : Develops m₀ m'

theorem Memory.Develops.keeps {m m' : Memory} (h : m.Develops m') : m.Keeps m' := by
  induction h with
  | refl => exact .refl m
  | alloc _ v ih => exact ih.trans (keeps_alloc _ v)
  | write _ hw ih => exact ih.trans (keeps_write hw)

/-! ## Assumptions on natives -/

/-- The native never answers with a fault of the given sort. -/
def Native.Avoids (n : Native) (bad : Fault → Prop) : Prop :=
  ∀ call args m s fault, (n.respond call args m s).1 = .error fault → ¬ bad fault

/-- The native creates and changes cells only through the operations of the memory. -/
def Native.Disciplined (n : Native) : Prop :=
  ∀ call args (m : Memory) s, m.Develops (n.respond call args m s).2.1

/-- All natives of the registry are of the given sort. -/
def Registry.All (P : Native → Prop) (r : Registry) : Prop :=
  ∀ e ∈ r.entries, P e.native

/-- A native that writes leaves the cells alone and answers with the unit or with a fault of the
output. -/
theorem Native.respond_writing (write : Sink → String → Option String × Sink)
    (text : List Value → String) (call : Nat) (args : List Value) (m : Memory) (s : Sink) :
    ((Native.writing write text).respond call args m s).2.1 = m ∧
      ∀ fault, ((Native.writing write text).respond call args m s).1 = .error fault →
        ∃ message, fault = .output message := by
  simp only [Native.writing]
  split
  · refine ⟨rfl, fun fault h => ?_⟩
    cases h
    exact ⟨_, rfl⟩
  · exact ⟨rfl, fun fault h => by cases h⟩

theorem Native.disciplined_writing (write : Sink → String → Option String × Sink)
    (text : List Value → String) : (Native.writing write text).Disciplined := by
  intro call args m s
  rw [(respond_writing write text call args m s).1]
  exact .refl

theorem Native.avoids_writing {bad : Fault → Prop} (hbad : ∀ message, ¬ bad (.output message))
    (write : Sink → String → Option String × Sink) (text : List Value → String) :
    (Native.writing write text).Avoids bad := by
  intro call args m s fault h
  obtain ⟨message, rfl⟩ := (respond_writing write text call args m s).2 fault h
  exact hbad message

theorem Registry.mem_put {new e : Registration} {l : List Registration}
    (h : e ∈ put new l) : e = new ∨ e ∈ l := by
  induction l with
  | nil => exact .inl (List.mem_singleton.mp h)
  | cons x xs ih =>
      unfold put at h
      split at h
      · rcases List.mem_cons.mp h with rfl | hmem
        · exact .inl rfl
        · exact .inr (List.mem_cons_of_mem _ hmem)
      · rcases List.mem_cons.mp h with rfl | hmem
        · exact .inr List.mem_cons_self
        · rcases ih hmem with rfl | hin
          · exact .inl rfl
          · exact .inr (List.mem_cons_of_mem _ hin)

theorem Registry.find?_put (new : Registration) (l : List Registration) :
    (⟨put new l⟩ : Registry).find? new.name = some new := by
  induction l with
  | nil => simp [find?, put]
  | cons e l ih =>
      by_cases h : e.name = new.name
      · simp [find?, put, h]
      · simp only [find?] at ih
        simp [find?, put, h, ih]

theorem Registry.find?_put_of_ne {new : Registration} {name : String} (h : new.name ≠ name)
    (l : List Registration) :
    (⟨put new l⟩ : Registry).find? name = (⟨l⟩ : Registry).find? name := by
  induction l with
  | nil => simp [find?, put, h]
  | cons e l ih =>
      simp only [find?] at ih
      by_cases he : e.name = new.name
      · simp [find?, put, he, h]
      · simp [find?, put, he, List.find?_cons, ih]

theorem Registry.All.register {P : Native → Prop} {r : Registry} (h : r.All P) (name : String)
    {n : Native} (hn : P n) : (r.register name n).All P := by
  intro e he
  rcases mem_put he with rfl | hmem
  · exact hn
  · exact h e hmem

/-- What holds of the two natives that print holds of all natives that are always there. -/
theorem Registry.all_standard {P : Native → Prop}
    (h : ∀ write text, P (.writing write text)) : standard.All P := by
  have hempty : (⟨[]⟩ : Registry).All P := fun e he => absurd he List.not_mem_nil
  exact (hempty.register "print" (h _ _)).register "println" (h _ _)

/-! ## Calls of natives -/

theorem Resources.callNative_registry {P : Native → Prop} {r : Resources}
    (h : r.registry.All P) (name : String) (args : List Value) :
    (r.callNative name args).2.registry.All P := by
  unfold callNative
  split
  · exact h
  · -- the entry is put back with one more call counted, for the same native
    rename_i e he
    intro e' he'
    rcases Registry.mem_put he' with rfl | hmem
    · exact h e (List.mem_of_find?_eq_some he)
    · exact h e' hmem

/-- A call fails because there is no such native, or with a fault that the native answers. -/
theorem Resources.callNative_eq_error {r r' : Resources} {bad : Fault → Prop} {name : String}
    {args : List Value} {fault : Fault} (h : r.registry.All (·.Avoids bad))
    (hcall : r.callNative name args = (.error fault, r')) :
    fault = .unknownBuiltin name ∨ ¬ bad fault := by
  unfold callNative at hcall
  split at hcall
  · cases hcall
    exact .inl rfl
  · rename_i e he
    have hrespond : (e.native.respond (e.calls + 1) args r.memory r.sink).1 = .error fault :=
      congrArg Prod.fst hcall
    exact .inr (h e (List.mem_of_find?_eq_some he) _ _ _ _ _ hrespond)

theorem Resources.callNative_keeps {r : Resources} (h : r.registry.All Native.Disciplined)
    (name : String) (args : List Value) :
    r.memory.Keeps (r.callNative name args).2.memory := by
  unfold callNative
  split
  · exact .refl _
  · rename_i e he
    exact (h e (List.mem_of_find?_eq_some he) _ _ _ _).keeps

/-! ## Resources during a run -/

/-- The resources change by stores and by calls of natives. -/
inductive Resources.Evolves (r₀ : Resources) : Resources → Prop
  | refl : Evolves r₀ r₀
  | store {r : Resources} {a : Address} {v : Value} {m : Memory} (h : Evolves r₀ r)
      (hm : r.memory.write a v = .ok m) : Evolves r₀ { r with memory := m }
  | native {r r' : Resources} {name : String} {args : List Value} {res : Except Fault Value}
      (h : Evolves r₀ r) (hcall : r.callNative name args = (res, r')) : Evolves r₀ r'

theorem Resources.Evolves.registry {P : Native → Prop} {r₀ r : Resources} (h : r₀.Evolves r)
    (hall : r₀.registry.All P) : r.registry.All P := by
  induction h with
  | refl => exact hall
  | store _ _ ih => exact ih
  | @native r r' name args res _ hcall ih =>
      have hr' : (r.callNative name args).2 = r' := by rw [hcall]
      exact hr' ▸ callNative_registry ih name args

theorem Resources.Evolves.keeps {r₀ r : Resources} (h : r₀.Evolves r)
    (hall : r₀.registry.All Native.Disciplined) : r₀.memory.Keeps r.memory := by
  induction h with
  | refl => exact .refl _
  | store _ hm ih => exact ih.trans (Memory.keeps_write hm)
  | @native r r' name args res hev hcall ih =>
      have hr' : (r.callNative name args).2 = r' := by rw [hcall]
      exact hr' ▸ ih.trans (callNative_keeps (hev.registry hall) name args)

end SsaMachine
