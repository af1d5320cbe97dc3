import SsaMachine.Engine.Basic
import SsaMachine.Proofs.Life
import Mathlib.Logic.Function.Iterate
import Mathlib.Logic.Relation

set_option autoImplicit false

/-! # Stretches of a run

`Context.run` counts steps, while a statement about one call speaks of the stretch of the run from
its entry to its return. Two facts connect them.

* A run is the iterate of the total step (`Context.run_eq_iterate`). So runs can be put together
  (`Context.run_add`), and a run that has ended is not changed by more steps
  (`Context.run_of_result?`).
* As long as the calls `ws` keep waiting, the call directly above them is one and the same: it
  is on top of the stack, or it waits for a call that it has made itself (`State.Shows`). In the
  meantime it only advances as a call can, by itself or with the answer to a call
  (`Context.advances_of_suspends`).
-/

namespace SsaMachine

/-! ## Runs as iterates -/

theorem Context.run_eq_iterate (c : Context) : ∀ (n : Nat) (s : State), c.run n s = c.step^[n] s
  | 0, _ => rfl
  | n + 1, s => by
      rw [Function.iterate_succ_apply, ← run_eq_iterate c n]
      obtain ⟨status, r⟩ := s
      cases status with
      | running a ws => rfl
      | halted result => cases n <;> rfl

theorem Context.run_succ (c : Context) (n : Nat) (s : State) :
    c.run (n + 1) s = c.step (c.run n s) := by
  rw [run_eq_iterate, run_eq_iterate, Function.iterate_succ_apply']

theorem Context.run_step (c : Context) (n : Nat) (s : State) :
    c.run (n + 1) s = c.run n (c.step s) := by
  rw [run_eq_iterate, run_eq_iterate, Function.iterate_succ_apply]

theorem Context.run_add (c : Context) (m n : Nat) (s : State) :
    c.run (m + n) s = c.run n (c.run m s) := by
  rw [run_eq_iterate, run_eq_iterate, run_eq_iterate, Nat.add_comm, Function.iterate_add_apply]

theorem Context.step_of_result? {c : Context} {s : State} {result : Except Failure Value}
    (h : s.result? = some result) : c.step s = s := by
  obtain ⟨status, r⟩ := s
  cases status with
  | running a ws => cases h
  | halted result' => rfl

/-- A run that has ended stays as it is. -/
theorem Context.run_of_result? {c : Context} {n m : Nat} {s : State}
    {result : Except Failure Value} (h : (c.run n s).result? = some result) (hle : n ≤ m) :
    c.run m s = c.run n s := by
  obtain ⟨k, rfl⟩ := Nat.exists_eq_add_of_le hle
  rw [run_add, run_eq_iterate c k, Function.iterate_fixed (step_of_result? h)]

/-- A call that has ended is not changed by more steps. -/
theorem Engine.call_of_le {e : Engine} {fuel fuel' : Nat} {callee : Callee} {args : List Value}
    {result : Except Failure Value} (h : (e.call fuel callee args).1 = some result)
    (hle : fuel ≤ fuel') : e.call fuel' callee args = e.call fuel callee args := by
  unfold call
  rw [Context.run_of_result? h hle]

/-! ## The start of a run -/

theorem Context.start_of_enter {c : Context} {r : Resources} {callee : Callee} {f : Function}
    {args : List Value} {a : Activation} (ht : c.program.target callee = .ok (.body f))
    (he : Activation.enter f args = .ok a) : c.start r callee args = ⟨.running a [], r⟩ := by
  simp only [start, ht, he]

/-- A run that goes on after its start executes a function with a body, above no other call. -/
theorem Context.start_eq_running {c : Context} {r r' : Resources} {callee : Callee}
    {args : List Value} {a : Activation} {ws : List Caller}
    (h : c.start r callee args = ⟨.running a ws, r'⟩) :
    ∃ f, c.program.target callee = .ok (.body f) ∧ Activation.enter f args = .ok a ∧ ws = [] := by
  unfold start at h
  split at h
  · cases h
  · split at h <;> cases h
  · rename_i f ht
    split at h
    · cases h
    · rename_i top he
      cases h
      exact ⟨f, ht, he, rfl⟩

/-- The states in which a run goes on are made of the lives of single calls. -/
theorem Context.reaches_of_run {c : Context} {r r' : Resources} {callee : Callee}
    {args : List Value} {n : Nat} {a : Activation} {ws : List Caller}
    (h : c.run n (c.start r callee args) = ⟨.running a ws, r'⟩) :
    ∃ r₀, c.Reaches r₀ ⟨.running a ws, r'⟩ := by
  cases hs : c.start r callee args with
  | mk status r₀ =>
      rw [hs] at h
      cases status with
      | halted result =>
          have hstay : c.run n ⟨.halted result, r₀⟩ = ⟨.halted result, r₀⟩ :=
            run_of_result? (n := 0) rfl (Nat.zero_le n)
          rw [hstay] at h
          cases h
      | running a₀ ws₀ =>
          obtain ⟨f, ht, he, rfl⟩ := start_eq_running hs
          obtain ⟨hf, hbody⟩ := Program.target_eq_body ht
          have hreach : c.Reaches r₀ ⟨.running a₀ [], r₀⟩ :=
            .running .refl ⟨f, args, hf, hbody, .enter he⟩ fun w hw => absurd hw List.not_mem_nil
          exact ⟨r₀, h ▸ reaches_run hreach n⟩

/-- Every call that is on top in some state of a run has a life. -/
theorem Context.lives_of_run {c : Context} {r r' : Resources} {callee : Callee}
    {args : List Value} {n : Nat} {a : Activation} {ws : List Caller}
    (h : c.run n (c.start r callee args) = ⟨.running a ws, r'⟩) : c.Lives a := by
  obtain ⟨r₀, hreach⟩ := reaches_of_run h
  cases hreach with
  | running hr ha hws => exact ha

/-! ## How one call goes on -/

/-- The call goes on: by itself, or with the answer to a call that it has made. -/
inductive Context.Advances (c : Context) (a : Activation) : Activation → Prop
  | move {r r' : Resources} {a' : Activation} (h : c.Move r a r' a') : Advances c a a'
  | answer {m : Memory} {callee : Callee} {vs : List Value} {w : Caller} {v : Value}
      {a' : Activation} (hc : c.Calls m a callee vs w) (h : w.resume v = .ok a') : Advances c a a'

theorem Context.Life.advances {c : Context} {f : Function} {args : List Value}
    {a a' : Activation} (ha : c.Life f args a) (h : c.Advances a a') : c.Life f args a' := by
  cases h with
  | move h => exact ha.move h
  | answer hc h => exact ha.answer hc h

/-- A life is an entry and advances after it. -/
theorem Context.Life.induction_advances {c : Context} {f : Function} {args : List Value}
    {P : Activation → Prop} (henter : ∀ a, Activation.enter f args = .ok a → P a)
    (hadvance : ∀ a a', c.Life f args a → P a → c.Advances a a' → P a') {a : Activation}
    (h : c.Life f args a) : P a := by
  induction h with
  | enter he => exact henter _ he
  | move ha h ih => exact hadvance _ _ ha ih (.move h)
  | answer ha hc h ih => exact hadvance _ _ ha ih (.answer hc h)

/-- The call directly above the calls `ws` is `a`: it is on top, or it waits for a call that it
has made. -/
inductive State.Shows (c : Context) (ws : List Caller) (a : Activation) : State → Prop
  | top (r : Resources) : Shows c ws a ⟨.running a ws, r⟩
  | waiting {m : Memory} {callee : Callee} {vs : List Value} {w : Caller}
      (hc : c.Calls m a callee vs w) (top : Activation) (us : List Caller) (r : Resources) :
      Shows c ws a ⟨.running top (us ++ w :: ws), r⟩

/-- The calls `ws` wait, whatever is above them. -/
def State.Suspends (s : State) (ws : List Caller) : Prop :=
  ∃ a us r, s = ⟨.running a (us ++ ws), r⟩

/-- As long as a run goes on, its calls are above nothing. -/
theorem Context.suspends_nil_of_run {c : Context} {n k : Nat} {s : State}
    (h : (c.run n s).result? = none) (hle : k ≤ n) : (c.run k s).Suspends [] := by
  cases hk : c.run k s with
  | mk status r =>
      cases status with
      | running a ws => exact ⟨a, ws, r, by rw [List.append_nil]⟩
      | halted result =>
          have hended : (c.run k s).result? = some result := by rw [hk]; rfl
          rw [run_of_result? hended hle, hended] at h
          cases h

theorem State.deliver_of_resume {w : Caller} {v : Value} {a : Activation}
    (h : w.resume v = .ok a) (r : Resources) (ws : List Caller) :
    State.deliver r v (w :: ws) = ⟨.running a ws, r⟩ := by
  simp only [deliver, h]

theorem State.deliver_of_resume_error {w : Caller} {v : Value} {failure : Failure}
    (h : w.resume v = .error failure) (r : Resources) (ws : List Caller) :
    State.deliver r v (w :: ws) = ⟨.halted (.error failure), r⟩ := by
  simp only [deliver, h, halt]

/-- Handing over a result lets the run go on only in the call that waits for it. -/
theorem State.resume_of_suspends {r : Resources} {v : Value} {w : Caller} {us ws : List Caller}
    (h : (State.deliver r v (w :: us)).Suspends ws) :
    ∃ a, w.resume v = .ok a ∧ State.deliver r v (w :: us) = ⟨.running a us, r⟩ := by
  cases hv : w.resume v with
  | error failure =>
      obtain ⟨a, us', r', h⟩ := h
      rw [deliver_of_resume_error hv] at h
      cases h
  | ok a => exact ⟨a, rfl, deliver_of_resume hv r us⟩

/-- A call on top of the calls `ws` is not above more of them. -/
theorem State.not_suspends_cons {a : Activation} {w : Caller} {ws : List Caller} {r : Resources} :
    ¬ State.Suspends ⟨.running a ws, r⟩ (w :: ws) := by
  rintro ⟨top, us, r', h⟩
  simp only [State.mk.injEq, Status.running.injEq] at h
  have hlen := congrArg List.length h.1.2
  simp only [List.length_append, List.length_cons] at hlen
  omega

/-- When the call above `ws` returns, `ws` no longer waits as a whole. -/
theorem State.not_suspends_deliver {r : Resources} {v : Value} {ws : List Caller} :
    ¬ (State.deliver r v ws).Suspends ws := by
  intro h
  cases ws with
  | nil =>
      obtain ⟨a, us, r', h⟩ := h
      cases h
  | cons w ws =>
      obtain ⟨a, -, hs⟩ := resume_of_suspends h
      rw [hs] at h
      exact not_suspends_cons h

theorem Context.Calls.shows {c : Context} {m : Memory} {a : Activation} {callee : Callee}
    {vs : List Value} {w : Caller} {ws : List Caller} {s : State} (hc : c.Calls m a callee vs w)
    (h : s.Suspends (w :: ws)) : s.Shows c ws a := by
  obtain ⟨top, us, r, rfl⟩ := h
  exact .waiting hc top us r

/-- The step lemma: the call above `ws` waits for a call that it has made, or it advances by one
and is on top. -/
theorem State.Shows.step {c : Context} {ws : List Caller} {a : Activation} {s : State}
    (h : s.Shows c ws a) (hsus : (c.step s).Suspends ws) :
    (∃ m callee vs w, c.Calls m a callee vs w ∧ (c.step s).Suspends (w :: ws)) ∨
      ∃ a' r, c.Advances a a' ∧ c.step s = ⟨.running a' ws, r⟩ := by
  cases h with
  | top r =>
      generalize hs : c.step ⟨.running a ws, r⟩ = s at hsus
      have hstep : c.Step a ws r s := hs ▸ c.step_of_running a ws r
      cases hstep with
      | move h => exact .inr ⟨_, _, .move h, rfl⟩
      | call hc ht he => exact .inl ⟨_, _, _, _, hc, _, [], r, rfl⟩
      | native hc ht hn =>
          obtain ⟨a', hv, hs⟩ := resume_of_suspends hsus
          exact .inr ⟨a', _, .answer hc hv, hs⟩
      | ret hb => exact absurd hsus not_suspends_deliver
      | fail hraise =>
          obtain ⟨_, _, _, h⟩ := hsus
          cases h
  | @waiting m callee vs w hc top us r =>
      generalize hs : c.step ⟨.running top (us ++ w :: ws), r⟩ = s at hsus
      have hstep : c.Step top (us ++ w :: ws) r s := hs ▸ c.step_of_running top (us ++ w :: ws) r
      cases hstep with
      | move h => exact .inl ⟨m, callee, vs, w, hc, _, us, _, rfl⟩
      | @call _ _ u _ _ hc' ht he => exact .inl ⟨m, callee, vs, w, hc, _, u :: us, r, rfl⟩
      | native hc' ht hn =>
          obtain ⟨top', -, hs⟩ := resume_of_suspends hsus
          exact .inl ⟨m, callee, vs, w, hc, top', us, _, hs⟩
      | ret hb =>
          -- the answer goes to the call itself if nothing else waits above it
          cases us with
          | nil =>
              obtain ⟨a', hv, hs⟩ := resume_of_suspends hsus
              exact .inr ⟨a', r, .answer hc hv, hs⟩
          | cons u us =>
              rw [List.cons_append] at hsus ⊢
              obtain ⟨top', -, hs⟩ := resume_of_suspends hsus
              exact .inl ⟨m, callee, vs, w, hc, top', us, r, hs⟩
      | fail hraise =>
          obtain ⟨_, _, _, h⟩ := hsus
          cases h

/-- **While the calls below keep waiting, a call advances only as a call can.** -/
theorem Context.advances_of_suspends {c : Context} {s : State} {ws : List Caller}
    {a : Activation} (h : s.Shows c ws a) :
    ∀ n, (∀ k ≤ n, (c.run k s).Suspends ws) →
      ∃ a', Relation.ReflTransGen c.Advances a a' ∧ (c.run n s).Shows c ws a' := by
  intro n
  induction n with
  | zero => exact fun _ => ⟨a, .refl, h⟩
  | succ n ih =>
      intro hsus
      obtain ⟨a', hadv, hshows⟩ := ih fun k hk => hsus k (Nat.le_succ_of_le hk)
      have hlast : (c.step (c.run n s)).Suspends ws := by
        rw [← run_succ]
        exact hsus (n + 1) (Nat.le_refl _)
      rw [run_succ]
      rcases hshows.step hlast with ⟨m, callee, vs, w, hc, hw⟩ | ⟨a'', r, hadv', hs⟩
      · exact ⟨a', hadv, hc.shows hw⟩
      · exact ⟨a'', hadv.tail hadv', hs ▸ .top r⟩

theorem State.Shows.suspends {c : Context} {ws : List Caller} {a : Activation} {s : State}
    (h : s.Shows c ws a) : s.Suspends ws := by
  cases h with
  | top r => exact ⟨a, [], r, rfl⟩
  | @waiting m callee vs w hc top us r => exact ⟨top, us ++ [w], r, by simp⟩

/-- A waiting call is known by what it waits with. -/
theorem Context.Calls.eq_mk {c : Context} {m : Memory} {a : Activation} {callee : Callee}
    {vs : List Value} {w : Caller} (h : c.Calls m a callee vs w) :
    a = ⟨w.function, w.frame, .instr w.index⟩ := by
  cases h with
  | intro hat hex => rw [← hat.point]

/-- A call that is on top is the one directly above the waiting calls. -/
theorem State.Shows.eq_top {c : Context} {ws : List Caller} {a a' : Activation} {r : Resources}
    (h : State.Shows c ws a ⟨.running a' ws, r⟩) : a = a' := by
  generalize hs : (⟨.running a' ws, r⟩ : State) = s at h
  cases h with
  | top => cases hs; rfl
  | @waiting m callee vs w hc top us r' => exact absurd ⟨top, us, r', hs⟩ not_suspends_cons

/-- There is only one call directly above the waiting calls. -/
theorem State.Shows.unique {c : Context} {ws : List Caller} {a a' : Activation} {s : State}
    (h : s.Shows c ws a) (h' : s.Shows c ws a') : a = a' := by
  cases h with
  | top r => exact h'.eq_top.symm
  | @waiting m callee vs w hc top us r =>
      generalize hs : (⟨.running top (us ++ w :: ws), r⟩ : State) = s at h'
      cases h' with
      | top r' =>
          have hself : State.Shows c ws a ⟨.running top (us ++ w :: ws), r⟩ := .waiting hc top us r
          rw [hs] at hself
          exact hself.eq_top
      | @waiting m' callee' vs' w' hc' top' us' =>
          simp only [State.mk.injEq, Status.running.injEq] at hs
          have hw := (List.append_inj' hs.1.2 rfl).2
          rw [hc.eq_mk, hc'.eq_mk, (List.cons.inj hw).1]

/-- Every call on the stack has a life, also while it waits. -/
theorem Context.lives_of_shows {c : Context} {r : Resources} {callee : Callee}
    {args : List Value} {n : Nat} {a : Activation} {ws : List Caller}
    (h : (c.run n (c.start r callee args)).Shows c ws a) : c.Lives a := by
  generalize hs : c.run n (c.start r callee args) = s at h
  cases h with
  | top r' => exact lives_of_run hs
  | @waiting m callee vs w hc top us r' =>
      obtain ⟨r₀, hreach⟩ := reaches_of_run hs
      cases hreach with
      | running hr ha hws =>
          obtain ⟨m', a', callee', vs', ha', hc'⟩ := hws w (by simp)
          rw [hc.eq_mk, ← hc'.eq_mk]
          exact ha'

end SsaMachine
