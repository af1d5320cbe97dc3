import SsaMachine.Proofs.Isolation
import SsaMachine.Proofs.Location
import SsaMachine.Proofs.Session
import SsaMachine.Proofs.Span

set_option autoImplicit false

/-! # Code without stores is pure

A function is free of stores when neither it nor any function that it can reach through calls
contains a store or calls a native (`Program.StoreFree`). Calling such a function leaves the engine
exactly as it was, in every cell, every global variable, the natives and the output, whether the
call succeeds, fails or is still going on (`Engine.storeFree_calls_are_pure`). So nothing can
distinguish the first call from a later one.

The invariant has two parts that need each other (`State.Untouched`): the resources are those of the
start, and every call on the stack executes a function that the first one can reach. The second part
is what allows the assumption to be used at the next step, at whatever depth of calls.
-/

namespace SsaMachine

/-! ## The condition -/

/-- The function has a body, and no instruction of it stores or calls a native by its name. -/
structure Function.StoreFree (f : Function) : Prop where
  body : f.isExternal = false
  stores : ∀ i, f.Has i → ∀ addr x, i.op ≠ .store addr x
  builtins : ∀ i, f.Has i → ∀ name xs, i.op ≠ .call (.builtin name) xs

/-- No function that can be reached from the one numbered `id` through call instructions, itself
included, stores or calls a native. A function without a body is a native, so none of them may
be one. -/
def Program.StoreFree (p : Program) (id : FunctionId) : Prop :=
  ∀ f, p.Involves id f → f.StoreFree

theorem Program.involves_self {p : Program} {id : FunctionId} {f : Function}
    (hf : p.function? id = some f) : p.Involves id f :=
  ⟨id, .refl, hf⟩

theorem Program.Involves.callsTo {p : Program} {id id' : FunctionId} {f g : Function}
    (hf : p.Involves id f) (hc : f.CallsTo id') (hg : p.function? id' = some g) :
    p.Involves id g := by
  obtain ⟨k, hk, hkf⟩ := hf
  exact ⟨id', hk.tail ⟨f, hkf, hc⟩, hg⟩

/-- None of the functions that can be reached stands for a native. -/
theorem Program.StoreFree.target_ne_native {p : Program} {id id' : FunctionId}
    (h : p.StoreFree id) (hid' : ∀ f, p.function? id' = some f → p.Involves id f)
    (name : String) : p.target (.function id') ≠ .ok (.native name) := by
  intro ht
  obtain ⟨f, hf, hexternal⟩ := function?_of_target_native ht
  rw [(h f (hid' f hf)).body] at hexternal
  cases hexternal

/-! ## What a step leaves as it is -/

/-- The resources are still `r₀`, and all calls on the stack are of functions that can be reached
from the one numbered `id`. -/
structure State.Untouched (s : State) (p : Program) (id : FunctionId) (r₀ : Resources) :
    Prop where
  resources : s.resources = r₀
  calls : ∀ a ws, s.status = .running a ws →
    p.Involves id a.function ∧ ∀ w ∈ ws, p.Involves id w.function

theorem State.untouched_halt (p : Program) (id : FunctionId) (r : Resources)
    (result : Except Failure Value) : (State.halt r result).Untouched p id r :=
  ⟨rfl, fun _ _ h => by cases h⟩

theorem State.untouched_running {p : Program} {id : FunctionId} {a : Activation}
    {ws : List Caller} (ha : p.Involves id a.function) (hws : ∀ w ∈ ws, p.Involves id w.function)
    (r : Resources) : State.Untouched ⟨.running a ws, r⟩ p id r := by
  refine ⟨rfl, fun a' ws' h => ?_⟩
  cases h
  exact ⟨ha, hws⟩

theorem State.untouched_deliver {p : Program} {id : FunctionId} {ws : List Caller}
    (hws : ∀ w ∈ ws, p.Involves id w.function) (r : Resources) (v : Value) :
    (State.deliver r v ws).Untouched p id r := by
  cases ws with
  | nil => exact untouched_halt p id r _
  | cons w ws =>
      cases hv : w.resume v with
      | error failure =>
          rw [deliver_of_resume_error hv]
          exact untouched_halt p id r _
      | ok a =>
          rw [deliver_of_resume hv]
          obtain ⟨g, -, rfl⟩ := Caller.resume_eq_ok hv
          exact untouched_running (hws w List.mem_cons_self)
            (fun w' hw' => hws w' (List.mem_cons_of_mem _ hw')) r

/-- Only a store changes the memory. -/
theorem Context.memory_eq_of_execute {c : Context} {f f' : Frame} {m m' : Memory} {i : Instr}
    (hi : ∀ addr x, i.op ≠ .store addr x) (h : c.execute f m i = .ok (.proceed f' m')) :
    m' = m := by
  cases executes_of_execute h with
  | store hop => exact absurd hop (hi _ _)
  | unary => rfl
  | binary => rfl
  | phi => rfl

section Purity

variable {c : Context} {id : FunctionId} (hpure : c.program.StoreFree id)
include hpure

/-- What a call of a function free of stores calls is no native. -/
theorem Context.Calls.target_ne_native {m : Memory} {a : Activation} {callee : Callee}
    {vs : List Value} {w : Caller} (ha : c.program.Involves id a.function)
    (h : c.Calls m a callee vs w) (name : String) :
    c.program.target callee ≠ .ok (.native name) := by
  intro ht
  cases callee with
  | builtin name' =>
      cases h with
      | intro hat hex =>
          obtain ⟨xs, hop, -⟩ := execute_eq_call hex
          exact (hpure _ ha).builtins _ hat.has name' xs hop
  | function id' => exact hpure.target_ne_native (fun _ => ha.callsTo h.callsTo) name ht

theorem Context.Move.untouched {r r' : Resources} {a a' : Activation}
    (ha : c.program.Involves id a.function) (h : c.Move r a r' a') :
    r' = r ∧ a'.function = a.function := by
  cases h with
  | phis => exact ⟨rfl, rfl⟩
  | proceed hat hex =>
      rw [memory_eq_of_execute ((hpure _ ha).stores _ hat.has) hex]
      exact ⟨rfl, rfl⟩
  | goto => exact ⟨rfl, rfl⟩
  | exit => exact ⟨rfl, rfl⟩

theorem Context.Raises.untouched {r r' : Resources} {a : Activation} {failure : Failure}
    (ha : c.program.Involves id a.function) (h : c.Raises r a failure r') : r' = r := by
  cases h with
  | native hc ht hn => exact absurd ht (hc.target_ne_native hpure ha _)
  | _ => rfl

/-- The step lemma: one case for each thing that a step can do. -/
theorem Context.Step.untouched {a : Activation} {ws : List Caller} {r : Resources} {s : State}
    (ha : c.program.Involves id a.function) (hws : ∀ w ∈ ws, c.program.Involves id w.function)
    (h : c.Step a ws r s) : s.Untouched c.program id r := by
  cases h with
  | move h =>
      obtain ⟨rfl, hfun⟩ := h.untouched hpure ha
      exact State.untouched_running (hfun ▸ ha) hws _
  | @call _ _ w _ _ hc ht he =>
      obtain ⟨hfun, -⟩ := Activation.enter_eq_ok he
      obtain ⟨id', rfl, hg⟩ := Program.function?_of_target ht
      have hw : w.function = a.function := by cases hc; rfl
      refine State.untouched_running ?_ (List.forall_mem_cons.mpr ⟨hw ▸ ha, hws⟩) r
      rw [hfun]
      exact ha.callsTo hc.callsTo hg
  | native hc ht hn => exact absurd ht (hc.target_ne_native hpure ha _)
  | ret hb => exact State.untouched_deliver hws r _
  | fail h =>
      rw [h.untouched hpure ha]
      exact State.untouched_halt c.program id r _

/-- The run lemma: at no moment has anything changed. -/
theorem Context.untouched_run {s : State} {r₀ : Resources} (hs : s.Untouched c.program id r₀)
    (n : Nat) : (c.run n s).Untouched c.program id r₀ := by
  refine run_induction (P := fun s => s.Untouched c.program id r₀) ?_ n s hs
  intro a ws r s' hs hstep
  obtain ⟨ha, hws⟩ := hs.calls a ws rfl
  obtain rfl : r = r₀ := hs.resources
  exact hstep.untouched hpure ha hws

theorem Context.untouched_start (r : Resources) (args : List Value) :
    (c.start r (.function id) args).Untouched c.program id r := by
  unfold start
  split
  · exact State.untouched_halt c.program id r _
  · rename_i ht
    exact absurd ht (hpure.target_ne_native (fun _ => Program.involves_self) _)
  · rename_i f ht
    obtain ⟨id', hid', hf⟩ := Program.function?_of_target ht
    cases hid'
    split
    · exact State.untouched_halt c.program id r _
    · rename_i a he
      obtain ⟨hfun, -⟩ := Activation.enter_eq_ok he
      exact State.untouched_running (hfun ▸ Program.involves_self hf)
        (fun w hw => absurd hw List.not_mem_nil) r

end Purity

/-! ## Calls on an engine -/

theorem Engine.call_engine_of_storeFree {e : Engine} {id : FunctionId}
    (h : e.program.StoreFree id) (fuel : Nat) (args : List Value) :
    (e.call fuel (.function id) args).2 = e := by
  have hstart := Context.untouched_start (c := e.context) h e.resources args
  have hrun := (Context.untouched_run (c := e.context) h hstart fuel).resources
  exact congrArg (fun r => { e with resources := r }) hrun

theorem Engine.serveAll_of_storeFree {e : Engine} {id : FunctionId} (h : e.program.StoreFree id)
    {rs : List Request} (hrs : ∀ r ∈ rs, ∃ fuel args, r = .call fuel (.function id) args) :
    e.serveAll rs = e := by
  induction rs with
  | nil => rfl
  | cons r rs ih =>
      obtain ⟨fuel, args, rfl⟩ := hrs r List.mem_cons_self
      have hfirst : e.serve (.call fuel (.function id) args) = e :=
        call_engine_of_storeFree h fuel args
      have hrest := ih fun r hr => hrs r (List.mem_cons_of_mem _ hr)
      rw [serveAll, List.foldl_cons, hfirst]
      exact hrest

/-- **Code without stores is pure.** Take any program, an engine in any state, and a function such
that neither it nor any function that it can reach through calls contains a store or calls a
native. A call with any arguments leaves the engine as it was: every cell, the global variables and
their cells, the natives and the output, however far the call comes and whether it succeeds or
fails. If it ends, then after any number of further calls of the function it ends with the same
value, or with the same fault at the same location. -/
theorem Engine.storeFree_calls_are_pure {e : Engine} {id : FunctionId}
    (h : e.program.StoreFree id) (args : List Value) :
    (∀ fuel, (e.call fuel (.function id) args).2 = e) ∧
      ∀ fuel result, (e.call fuel (.function id) args).1 = some result →
        ∀ rs : List Request, (∀ r ∈ rs, ∃ fuel args, r = .call fuel (.function id) args) →
          ∀ fuel' ≥ fuel, (e.serveAll rs).call fuel' (.function id) args = (some result, e) := by
  refine ⟨fun fuel => call_engine_of_storeFree h fuel args, ?_⟩
  intro fuel result hresult rs hrs fuel' hle
  rw [serveAll_of_storeFree h hrs, call_of_le hresult hle]
  exact Prod.ext hresult (call_engine_of_storeFree h fuel args)

theorem storeFree_nestedDivision (id : FunctionId) : nestedDivision.StoreFree id := by
  rintro f ⟨k, -, hf⟩
  have hmem : f ∈ nestedDivision.functions := List.mem_of_getElem? hf
  simp only [nestedDivision, List.mem_cons, List.not_mem_nil, or_false] at hmem
  refine ⟨?_, ?_, ?_⟩
  · rcases hmem with rfl | rfl <;> rfl
  all_goals
    rintro i ⟨b, hb, hi⟩
    rcases hmem with rfl | rfl <;> cases List.mem_singleton.mp hb <;>
      simp only [List.mem_cons, List.not_mem_nil, or_false] at hi <;>
      rcases hi with rfl | rfl <;> intro x y h <;> cases h

/-- A call that has failed two calls deep fails again in the same way, also after calls that have
succeeded or were cut short. -/
theorem Engine.storeFree_calls_are_pure_nestedDivision :
    ((Engine.new nestedDivision .unlimited).call 9 (.function 0) [.int (.ofInt .int 0)]).1
        = some (.error ⟨.divisionByZero, some ⟨"inverse", 0, 0⟩⟩) ∧
      ((Engine.new nestedDivision .unlimited).serveAll
          [.call 9 (.function 0) [.int (.ofInt .int 0)],
           .call 9 (.function 0) [.int (.ofInt .int 5)],
           .call 3 (.function 0) [.int (.ofInt .int 0)]]).call 12 (.function 0)
            [.int (.ofInt .int 0)] =
        (some (.error ⟨.divisionByZero, some ⟨"inverse", 0, 0⟩⟩),
          Engine.new nestedDivision .unlimited) := by
  have hrun : ((Engine.new nestedDivision .unlimited).call 9 (.function 0)
      [.int (.ofInt .int 0)]).1
        = some (.error ⟨.divisionByZero, some ⟨"inverse", 0, 0⟩⟩) := rfl
  refine ⟨hrun, (storeFree_calls_are_pure (storeFree_nestedDivision 0) _).2 9 _ hrun _ ?_ 12
    (by decide)⟩
  intro r hr
  simp only [List.mem_cons, List.not_mem_nil, or_false] at hr
  rcases hr with rfl | rfl | rfl <;> exact ⟨_, _, rfl⟩

end SsaMachine
