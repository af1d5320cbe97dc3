import SsaMachine.Machine.Step
import SsaMachine.Proofs.Instruction
import SsaMachine.Proofs.Resources

set_option autoImplicit false

/-! # The life of a call

A run is a sequence of states, each with a whole stack of calls. Most of what is worth saying
about runs is about one call at a time: where it stands, what its frame holds, which fault it
ends with. This file reduces statements of the first kind to statements of the second kind, once
and for every property.

* `Context.Step` lists what a step of the machine can do: the call on top moves on by itself, it
  makes a call, a native answers, it returns, or it raises a failure. `Context.step_of_running`
  says that `Context.step` does one of these.
* `Context.Life` is the view that one call has of its own execution. It is entered, it moves,
  and the calls that it makes are answered with some value; what happens on the stack above
  it in the meantime is not visible.
* `Context.reaches_run`: in every state that a run passes through, the call on top and all calls
  below it have such a life, the resources have changed only by stores and by natives, and a
  failure was raised by a call with such a life.

An invariant of one call is thus proved by induction over its life, and holds at every depth of
every run.
-/

namespace SsaMachine

/-! ## What a step can do -/

/-- The call is about to execute the instruction `i`, at position `k` of the block `b`. -/
structure Activation.At (a : Activation) (id : BlockId) (b : Block) (k : Nat) (i : Instr) :
    Prop where
  current : a.frame.block = some id
  block : a.function.block? id = some b
  point : a.point = .instr k
  instr : b.instrs[k]? = some i

/-- The call goes on by itself: it executes the phis at the head of a block, or an instruction
that is no call. -/
inductive Context.Move (c : Context) (r : Resources) (a : Activation) :
    Resources → Activation → Prop
  | phis {id : BlockId} {b : Block} {f : Frame} {n : Nat}
      (hid : a.frame.block = some id) (hb : a.function.block? id = some b)
      (hp : a.point = .head) (h : c.resolvePhis a.function a.frame b = .ok (f, n)) :
      Move c r a r ⟨a.function, f, .instr n⟩
  | proceed {id : BlockId} {b : Block} {k : Nat} {i : Instr} {f : Frame} {m : Memory}
      (hat : a.At id b k i) (h : c.execute a.frame r.memory i = .ok (.proceed f m)) :
      Move c r a { r with memory := m } ⟨a.function, f, .instr (k + 1)⟩
  | goto {id : BlockId} {b : Block} {k : Nat} {i : Instr} {t : BlockId}
      (hat : a.At id b k i) (h : c.execute a.frame r.memory i = .ok (.goto t)) :
      Move c r a r ⟨a.function, a.frame.transfer t, .head⟩
  | exit {id : BlockId} {b : Block} {k : Nat} {i : Instr} {v : Value}
      (hat : a.At id b k i) (h : c.execute a.frame r.memory i = .ok (.exit v)) :
      Move c r a r ⟨a.function, a.frame.finish v, .head⟩

/-- The call is about to call `callee`, and will wait for the answer as `w`. -/
inductive Context.Calls (c : Context) (m : Memory) (a : Activation) (callee : Callee)
    (vs : List Value) : Caller → Prop
  | intro {id : BlockId} {b : Block} {k : Nat} {i : Instr} (hat : a.At id b k i)
      (h : c.execute a.frame m i = .ok (.call callee vs)) :
      Calls c m a callee vs ⟨a.function, a.frame, id, k, i.dest⟩

/-- The call raises a failure, which ends the run. The failure has no location when no
instruction of the call is to blame. -/
inductive Context.Raises (c : Context) (r : Resources) (a : Activation) :
    Failure → Resources → Prop
  | block {id : BlockId} (hid : a.frame.block = some id) (hb : a.function.block? id = none) :
      Raises c r a ⟨.unknownBlock id, none⟩ r
  | phis {id : BlockId} {b : Block} {failure : Failure}
      (hid : a.frame.block = some id) (hb : a.function.block? id = some b)
      (hp : a.point = .head) (h : c.resolvePhis a.function a.frame b = .error failure) :
      Raises c r a failure r
  | ended {id : BlockId} {b : Block} {k : Nat}
      (hid : a.frame.block = some id) (hb : a.function.block? id = some b)
      (hp : a.point = .instr k) (hk : b.instrs[k]? = none) :
      Raises c r a ⟨.missingTerminator id, some ⟨a.function.name, id, k⟩⟩ r
  | instr {id : BlockId} {b : Block} {k : Nat} {i : Instr} {fault : Fault}
      (hat : a.At id b k i) (h : c.execute a.frame r.memory i = .error fault) :
      Raises c r a ⟨fault, some ⟨a.function.name, id, k⟩⟩ r
  | callee {callee : Callee} {vs : List Value} {w : Caller} {fault : Fault}
      (hc : c.Calls r.memory a callee vs w) (h : c.program.target callee = .error fault) :
      Raises c r a ⟨fault, some w.location⟩ r
  | native {callee : Callee} {vs : List Value} {w : Caller} {name : String} {fault : Fault}
      {r' : Resources} (hc : c.Calls r.memory a callee vs w)
      (ht : c.program.target callee = .ok (.native name))
      (h : r.callNative name vs = (.error fault, r')) :
      Raises c r a ⟨fault, some w.location⟩ r'
  | entry {callee : Callee} {vs : List Value} {w : Caller} {f : Function} {fault : Fault}
      (hc : c.Calls r.memory a callee vs w) (ht : c.program.target callee = .ok (.body f))
      (h : Activation.enter f vs = .error fault) :
      Raises c r a ⟨fault, some w.location⟩ r

/-- What a step of a run can do. -/
inductive Context.Step (c : Context) (a : Activation) (ws : List Caller) (r : Resources) :
    State → Prop
  | move {a' : Activation} {r' : Resources} (h : c.Move r a r' a') :
      Step c a ws r ⟨.running a' ws, r'⟩
  | call {callee : Callee} {vs : List Value} {w : Caller} {f : Function} {a' : Activation}
      (hc : c.Calls r.memory a callee vs w) (ht : c.program.target callee = .ok (.body f))
      (h : Activation.enter f vs = .ok a') : Step c a ws r ⟨.running a' (w :: ws), r⟩
  | native {callee : Callee} {vs : List Value} {w : Caller} {name : String} {v : Value}
      {r' : Resources} (hc : c.Calls r.memory a callee vs w)
      (ht : c.program.target callee = .ok (.native name))
      (h : r.callNative name vs = (.ok v, r')) : Step c a ws r (.deliver r' v (w :: ws))
  | ret (h : a.frame.block = none) : Step c a ws r (.deliver r a.frame.result ws)
  | fail {failure : Failure} {r' : Resources} (h : c.Raises r a failure r') :
      Step c a ws r (.abort r' failure ws)

theorem Context.step_of_invoke {c : Context} {a : Activation} {callee : Callee}
    {vs : List Value} {w : Caller} (ws : List Caller) {r : Resources}
    (hc : c.Calls r.memory a callee vs w) : c.Step a ws r (c.invoke r callee vs w ws) := by
  unfold invoke
  split
  · rename_i ht
    exact .fail (.callee hc ht)
  · rename_i ht
    split
    · rename_i hn
      exact .fail (.native hc ht hn)
    · rename_i hn
      exact .native hc ht hn
  · rename_i ht
    split
    · rename_i he
      exact .fail (.entry hc ht he)
    · rename_i he
      exact .call hc ht he

/-- **The machine does at each step one of the things that a step can do.** -/
theorem Context.step_of_running (c : Context) (a : Activation) (ws : List Caller)
    (r : Resources) : c.Step a ws r (c.step ⟨.running a ws, r⟩) := by
  obtain ⟨function, frame, point⟩ := a
  unfold step
  dsimp only
  split
  · rename_i hid
    exact .ret hid
  · rename_i id hid
    split
    · rename_i hb
      exact .fail (.block hid hb)
    · rename_i b hb
      split
      · split
        · rename_i hphis
          exact .fail (.phis hid hb rfl hphis)
        · rename_i hphis
          exact .move (.phis hid hb rfl hphis)
      · rename_i k
        split
        · rename_i hk
          exact .fail (.ended hid hb rfl hk)
        · rename_i i hk
          have hat : Activation.At ⟨function, frame, .instr k⟩ id b k i := ⟨hid, hb, rfl, hk⟩
          unfold stepInstr
          split
          · rename_i hex
            exact .fail (.instr hat hex)
          · rename_i hex
            exact .move (.proceed hat hex)
          · rename_i hex
            exact .move (.goto hat hex)
          · rename_i hex
            exact .move (.exit hat hex)
          · rename_i hex
            exact step_of_invoke ws (.intro hat hex)

/-- What holds of a state and is kept by every step holds after any number of steps. -/
theorem Context.run_induction {c : Context} {P : State → Prop}
    (hstep : ∀ a ws r s, P ⟨.running a ws, r⟩ → c.Step a ws r s → P s) :
    ∀ (n : Nat) (s : State), P s → P (c.run n s) := by
  intro n
  induction n with
  | zero => intro s hs; exact hs
  | succ n ih =>
      intro s hs
      obtain ⟨status, r⟩ := s
      cases status with
      | halted result => exact hs
      | running a ws => exact ih _ (hstep a ws r _ hs (c.step_of_running a ws r))

/-! ## What a run does to the resources -/

theorem Context.Move.evolves {c : Context} {r₀ r r' : Resources} {a a' : Activation}
    (h : c.Move r a r' a') (hr : r₀.Evolves r) : r₀.Evolves r' := by
  cases h with
  | phis => exact hr
  | proceed hat hex =>
      rcases execute_eq_proceed hex with ⟨-, -, -, _, _, hm⟩ | ⟨-, rfl, -⟩
      · exact .store hr hm
      · exact hr
  | goto => exact hr
  | exit => exact hr

theorem Context.Raises.evolves {c : Context} {r₀ r r' : Resources} {a : Activation}
    {failure : Failure} (h : c.Raises r a failure r') (hr : r₀.Evolves r) : r₀.Evolves r' := by
  cases h with
  | native hc ht hn => exact hr.native hn
  | _ => exact hr

theorem State.deliver_resources (r : Resources) (v : Value) (ws : List Caller) :
    (State.deliver r v ws).resources = r := by
  cases ws with
  | nil => rfl
  | cons w ws =>
      simp only [State.deliver]
      cases w.resume v <;> rfl

theorem Context.Step.evolves {c : Context} {r₀ r : Resources} {a : Activation}
    {ws : List Caller} {s : State} (h : c.Step a ws r s) (hr : r₀.Evolves r) :
    r₀.Evolves s.resources := by
  cases h with
  | move h => exact h.evolves hr
  | call => exact hr
  | native hc ht hn =>
      rw [State.deliver_resources]
      exact hr.native hn
  | ret =>
      rw [State.deliver_resources]
      exact hr
  | fail h => exact h.evolves hr

/-- **A run changes the resources only by stores and by calls of natives**, whatever is called
and however far the run comes. -/
theorem Context.evolves_run (c : Context) (r : Resources) (callee : Callee) (args : List Value)
    (n : Nat) : r.Evolves (c.run n (c.start r callee args)).resources := by
  refine run_induction (P := fun s => r.Evolves s.resources) ?_ n _ ?_
  · intro a ws r' s hs hstep
    exact hstep.evolves hs
  · unfold start
    split
    · exact .refl
    · split
      · rename_i hn
        exact .native .refl hn
      · rename_i hn
        exact .native .refl hn
    · split <;> exact .refl

/-! ## The life of one call -/

/-- The states that a call of `f` with the arguments `args` passes through, as far as it can see
them itself. A call that it makes is answered with any value, after the frame has waited
unchanged. -/
inductive Context.Life (c : Context) (f : Function) (args : List Value) : Activation → Prop
  | enter {a : Activation} (h : Activation.enter f args = .ok a) : Life c f args a
  | move {r r' : Resources} {a a' : Activation} (ha : Life c f args a)
      (h : c.Move r a r' a') : Life c f args a'
  | answer {m : Memory} {callee : Callee} {vs : List Value} {w : Caller} {v : Value}
      {a a' : Activation} (ha : Life c f args a) (hc : c.Calls m a callee vs w)
      (h : w.resume v = .ok a') : Life c f args a'

/-- The call is one of a function of the program that has a body. -/
def Context.Lives (c : Context) (a : Activation) : Prop :=
  ∃ f args, f ∈ c.program.functions ∧ f.isExternal = false ∧ c.Life f args a

/-- The waiting call is one of a function of the program, made by one of its instructions. -/
def Context.Waits (c : Context) (w : Caller) : Prop :=
  ∃ m a callee vs, c.Lives a ∧ c.Calls m a callee vs w

/-- The failures that a run can end with once it has started with the resources `r₀`: a call
raises one, or the frame of a waiting call has no room for the answer. -/
inductive Context.Fails (c : Context) (r₀ : Resources) : Failure → Prop
  | raised {a : Activation} {r r' : Resources} {failure : Failure} (ha : c.Lives a)
      (hr : r₀.Evolves r) (h : c.Raises r a failure r') (l : Option Location) :
      Fails c r₀ (failure.locate l)
  | unanswered {w : Caller} {v : Value} {failure : Failure} (hw : c.Waits w)
      (h : w.resume v = .error failure) : Fails c r₀ failure

/-- What holds of every state of a run that has started with the resources `r₀`. -/
inductive Context.Reaches (c : Context) (r₀ : Resources) : State → Prop
  | running {a : Activation} {ws : List Caller} {r : Resources} (hr : r₀.Evolves r)
      (ha : c.Lives a) (hws : ∀ w ∈ ws, c.Waits w) : Reaches c r₀ ⟨.running a ws, r⟩
  | value (v : Value) (r : Resources) : Reaches c r₀ ⟨.halted (.ok v), r⟩
  | failure {failure : Failure} (h : c.Fails r₀ failure) (r : Resources) :
      Reaches c r₀ ⟨.halted (.error failure), r⟩

theorem Program.target_eq_body {p : Program} {callee : Callee} {f : Function}
    (h : p.target callee = .ok (.body f)) : f ∈ p.functions ∧ f.isExternal = false := by
  unfold target at h
  split at h
  · cases h
  · split at h
    · cases h
    · rename_i g hg
      split at h
      · cases h
      · rename_i hx
        cases h
        exact ⟨List.mem_of_getElem? hg, by simpa using hx⟩

/-- A function that stands for a native has no body. -/
theorem Program.function?_of_target_native {p : Program} {id : FunctionId} {name : String}
    (h : p.target (.function id) = .ok (.native name)) :
    ∃ f, p.function? id = some f ∧ f.isExternal = true := by
  simp only [target] at h
  split at h
  · cases h
  · rename_i f hf
    split at h
    · rename_i hexternal
      exact ⟨f, hf, hexternal⟩
    · cases h

/-- An answer lets the call that waits for it go on, or ends the run. -/
theorem Context.reaches_deliver {c : Context} {r₀ r : Resources} {ws : List Caller} (v : Value)
    (hr : r₀.Evolves r) (hws : ∀ w ∈ ws, c.Waits w) : c.Reaches r₀ (.deliver r v ws) := by
  cases ws with
  | nil => exact .value v r
  | cons w ws =>
      have hw : c.Waits w := hws w List.mem_cons_self
      have hrest : ∀ w' ∈ ws, c.Waits w' := fun w' h => hws w' (List.mem_cons_of_mem _ h)
      cases hv : w.resume v with
      | error failure =>
          have heq : State.deliver r v (w :: ws) = ⟨.halted (.error failure), r⟩ := by
            simp [State.deliver, State.halt, hv]
          rw [heq]
          exact .failure (.unanswered hw hv) r
      | ok a' =>
          have heq : State.deliver r v (w :: ws) = ⟨.running a' ws, r⟩ := by
            simp [State.deliver, hv]
          rw [heq]
          -- the life of the waiting call goes on from where it made the call
          obtain ⟨m, a, callee, vs, ⟨f, args, hf, hbody, hlife⟩, hc⟩ := hw
          exact .running hr ⟨f, args, hf, hbody, hlife.answer hc hv⟩ hrest

/-- The step lemma: one case for each thing that a step can do. -/
theorem Context.Step.reaches {c : Context} {r₀ r : Resources} {a : Activation}
    {ws : List Caller} {s : State} (h : c.Step a ws r s) (hr : r₀.Evolves r) (ha : c.Lives a)
    (hws : ∀ w ∈ ws, c.Waits w) : c.Reaches r₀ s := by
  cases h with
  | move h =>
      -- the calls below are not touched
      obtain ⟨f, args, hf, hbody, hlife⟩ := ha
      exact .running (h.evolves hr) ⟨f, args, hf, hbody, hlife.move h⟩ hws
  | call hc ht he =>
      obtain ⟨hf, hbody⟩ := Program.target_eq_body ht
      refine .running hr ⟨_, _, hf, hbody, .enter he⟩ fun w' hw' => ?_
      rcases List.mem_cons.mp hw' with rfl | hmem
      · exact ⟨_, _, _, _, ha, hc⟩
      · exact hws w' hmem
  | native hc ht hn =>
      refine reaches_deliver _ (hr.native hn) fun w' hw' => ?_
      rcases List.mem_cons.mp hw' with rfl | hmem
      · exact ⟨_, _, _, _, ha, hc⟩
      · exact hws w' hmem
  | ret hb => exact reaches_deliver _ hr hws
  | fail h => exact .failure (.raised ha hr h _) _

/-- **Every state of a run, at every depth of calls, is made of the lives of single calls.** -/
theorem Context.reaches_run {c : Context} {r₀ : Resources} {s : State} (h : c.Reaches r₀ s)
    (n : Nat) : c.Reaches r₀ (c.run n s) := by
  refine run_induction ?_ n s h
  intro a ws r s' hs hstep
  cases hs with
  | running hr ha hws => exact hstep.reaches hr ha hws

/-- A run of a function with a body that ends with a failure could not enter the function, or
has failed in one of the calls. -/
theorem Context.fails_of_run {c : Context} {r : Resources} {id : FunctionId} {f : Function}
    {args : List Value} {n : Nat} {failure : Failure} (hf : c.program.function? id = some f)
    (hbody : f.isExternal = false)
    (h : (c.run n (c.start r (.function id) args)).result? = some (.error failure)) :
    (∃ fault, Activation.enter f args = .error fault ∧ failure = ⟨fault, none⟩) ∨
      c.Fails r failure := by
  have ht : c.program.target (.function id) = .ok (.body f) := by
    simp [Program.target, hf, hbody]
  cases he : Activation.enter f args with
  | error fault =>
      -- the run has ended before its first step
      have hs : c.start r (.function id) args = ⟨.halted (.error ⟨fault, none⟩), r⟩ := by
        simp [start, ht, he, State.fail, State.halt]
      have hrun : c.run n ⟨.halted (.error ⟨fault, none⟩), r⟩
          = ⟨.halted (.error ⟨fault, none⟩), r⟩ := by cases n <;> rfl
      rw [hs, hrun] at h
      cases h
      exact .inl ⟨fault, rfl, rfl⟩
  | ok a =>
      have hs : c.start r (.function id) args = ⟨.running a [], r⟩ := by
        simp [start, ht, he]
      have hlives : c.Lives a := ⟨f, args, List.mem_of_getElem? hf, hbody, .enter he⟩
      have hreach : c.Reaches r (c.run n ⟨.running a [], r⟩) :=
        reaches_run (.running .refl hlives fun w hw => absurd hw List.not_mem_nil) n
      rw [hs] at h
      generalize c.run n ⟨.running a [], r⟩ = s at h hreach
      cases hreach with
      | running => cases h
      | value => cases h
      | failure hfail =>
          cases h
          exact .inr hfail

end SsaMachine
