import SsaMachine.Proofs.Confinement
import SsaMachine.Proofs.Dominance
import SsaMachine.Proofs.Lockstep

set_option autoImplicit false

/-! # Two rewritings that keep the meaning of a program

* A call of a function that is declared without a body is a call of the native of that name
  (`Engine.external_calls_are_native_calls`). Neither verification nor a run can tell them apart:
  the arguments of both go unchecked to the same native, and what goes wrong is blamed on the same
  instruction.
* The order in which the edges of a phi are written does not matter, as long as no two come from
  the same block (`Engine.phi_edge_order_irrelevant`).

In both cases the rewritten program says the same as the original in the sense of
`Operation.Variant`, so that all there is to show is that each operation is rewritten to a variant
of itself. What is stated of a run is the equality of everything that the engine has afterwards, for
each number of steps; so the one run ends exactly when the other does.
-/

namespace SsaMachine

/-! ## Rewriting the operations of a program -/

/-- The block with each operation rewritten. -/
def Block.mapOps (g : Operation → Operation) (b : Block) : Block :=
  { b with instrs := b.instrs.map fun i => { i with op := g i.op } }

/-- The function with each operation rewritten. -/
def Function.mapOps (g : Operation → Operation) (f : Function) : Function :=
  { f with blocks := f.blocks.map (Block.mapOps g) }

/-- The program with each operation rewritten. -/
def Program.mapOps (g : Operation → Operation) (p : Program) : Program :=
  { p with functions := p.functions.map (Function.mapOps g) }

theorem Program.like_mapOps {R : Operation → Operation → Prop} {g : Operation → Operation}
    (hg : ∀ op, R op (g op)) (p : Program) : p.Like R (p.mapOps g) := by
  have hblock : ∀ b : Block, b.Like R (b.mapOps g) := by
    intro b
    refine ⟨rfl, ?_, rfl, rfl⟩
    exact List.forall₂_map_right_iff.mpr (List.forall₂_same.mpr fun i _ => ⟨rfl, hg i.op⟩)
  have hfunction : ∀ f : Function, f.Like R (f.mapOps g) := by
    intro f
    refine ⟨rfl, rfl, ?_, rfl, rfl⟩
    exact List.forall₂_map_right_iff.mpr (List.forall₂_same.mpr fun b _ => hblock b)
  refine ⟨rfl, ?_⟩
  exact List.forall₂_map_right_iff.mpr (List.forall₂_same.mpr fun f _ => hfunction f)

/-- The instructions of a rewritten function are the rewritten instructions. -/
theorem Function.Has.of_mapOps {g : Operation → Operation} {f : Function} {i : Instr}
    (h : (f.mapOps g).Has i) : ∃ op, i.op = g op := by
  obtain ⟨b', hb', hi⟩ := h
  obtain ⟨b, -, rfl⟩ := List.mem_map.mp hb'
  obtain ⟨j, -, rfl⟩ := List.mem_map.mp hi
  exact ⟨j.op, rfl⟩

/-! ## Functions without a body -/

/-- The callee by which to call directly what the given one stands for: for a function without a
body, the native of its name. -/
def Program.directCallee (p : Program) : Callee → Callee
  | .builtin name => .builtin name
  | .function id =>
    match p.function? id with
    | none => .function id
    | some f => if f.isExternal then .builtin f.name else .function id

/-- The operation with its callee replaced, if it is a call. -/
def Operation.redirect (g : Callee → Callee) : Operation → Operation
  | .call callee args => .call (g callee) args
  | op => op

/-- The program in which every call of a function without a body is a call of the native of that
name. The declaration itself stays. -/
def Program.direct (p : Program) : Program :=
  p.mapOps (Operation.redirect p.directCallee)

/-- A callee is replaced only if it stands for a native, and then by that native. -/
theorem Program.directCallee_cases (p : Program) (callee : Callee) :
    p.directCallee callee = callee ∨
      ∃ name, p.target callee = .ok (.native name) ∧ p.directCallee callee = .builtin name := by
  cases callee with
  | builtin name => exact .inl rfl
  | function id =>
      simp only [directCallee, target]
      cases p.function? id with
      | none => exact .inl rfl
      | some f =>
          dsimp only
          split
          · exact .inr ⟨f.name, rfl, rfl⟩
          · exact .inl rfl

theorem Program.directCallee_eq_function {p : Program} {callee : Callee} {id : FunctionId}
    {f : Function} (h : p.directCallee callee = .function id) (hf : p.function? id = some f) :
    f.isExternal = false := by
  cases callee with
  | builtin name => cases h
  | function id' =>
      simp only [directCallee] at h
      split at h
      · rename_i hnone
        cases h
        rw [hf] at hnone
        cases hnone
      · rename_i g hg
        split at h
        · cases h
        · rename_i hbody
          cases h
          rw [hf] at hg
          cases hg
          simpa using hbody

theorem Program.variant_redirect (p : Program) (op : Operation) :
    op.Variant p (op.redirect p.directCallee) := by
  cases op with
  | call callee args =>
      simp only [Operation.redirect]
      rcases p.directCallee_cases callee with heq | ⟨name, ht, heq⟩
      · rw [heq]
        exact .same _
      · rw [heq]
        exact .native ht rfl args
  | _ => exact .same _

theorem Program.like_direct (p : Program) : p.Like (Operation.Variant p) p.direct :=
  like_mapOps p.variant_redirect p

/-- In the rewritten program, no instruction calls a function without a body. -/
theorem Program.direct_callsTo {p : Program} {f g : Function} {id : FunctionId}
    (hf : f ∈ p.direct.functions) (hcalls : f.CallsTo id)
    (hg : p.direct.function? id = some g) : g.isExternal = false := by
  obtain ⟨f₀, -, rfl⟩ := List.mem_map.mp hf
  obtain ⟨i, xs, hi, hop⟩ := hcalls
  obtain ⟨op, hi⟩ := hi.of_mapOps
  rw [hop] at hi
  obtain ⟨g₀, hg₀, hlike⟩ := exists_of_rel_some (hg ▸ p.like_direct.function? id)
  rw [hlike.isExternal_eq]
  cases op with
  | call callee args => exact directCallee_eq_function (Operation.call.inj hi).1.symm hg₀
  | _ => cases hi

/-- **External declarations are natives.** Take any program, and replace in it every call of a
function without a body by a call of the native of that function's name, so that no such call is
left. The new program is verified exactly when the old one is, and an engine in any state does the
same with both: whatever is called with whatever arguments, after any number of steps both runs are
still going on, or both have ended with the same value or with the same fault at the same location,
and both leave the same cells, the same global variables, the same natives and the same output. -/
theorem Engine.external_calls_are_native_calls (e : Engine) :
    (∀ f ∈ e.program.direct.functions, ∀ id g, f.CallsTo id →
        e.program.direct.function? id = some g → g.isExternal = false) ∧
      (e.program.direct.verify = .ok () ↔ e.program.verify = .ok ()) ∧
      ∀ fuel callee args,
        (e.on e.program.direct).call fuel callee args =
          ((e.call fuel callee args).1, (e.call fuel callee args).2.on e.program.direct) :=
  ⟨fun _ hf _ _ hcalls hg => Program.direct_callsTo hf hcalls hg,
    e.program.like_direct.verify_iff, call_on e.program.like_direct⟩

/-- The declaration of a native, and a function that calls it, once through the declaration and once
by its name. -/
def declaredProgram : Program where
  globals := []
  functions :=
    [⟨"println", [], [], 0, 0⟩,
     ⟨"main", [],
      [⟨0,
        [⟨none, .call (.function 0) [.int .int 1]⟩,
         ⟨none, .call (.builtin "println") [.int .int 2]⟩,
         ⟨none, .ret []⟩], [], []⟩], 0, 0⟩]

example : ((declaredProgram.direct.function? 1).bind (·.block? 0)).map Block.instrs =
    some
      [⟨none, .call (.builtin "println") [.int .int 1]⟩,
       ⟨none, .call (.builtin "println") [.int .int 2]⟩,
       ⟨none, .ret []⟩] := rfl

/-! ## The order of the edges of a phi -/

/-- The second operation is the first, except that the edges of a phi may stand in another
order. -/
inductive Operation.Reordered : Operation → Operation → Prop
  | same (op : Operation) : Reordered op op
  | phi {es es' : List PhiEdge} (h : es.Perm es') : Reordered (.phi es) (.phi es')

theorem Operation.Reordered.variant {p : Program} {op op' : Operation} (h : op.Reordered op')
    (hop : ∀ es, op = .phi es → (es.map PhiEdge.pred).Nodup) : op.Variant p op' := by
  cases h with
  | same => exact .same op
  | phi hperm => exact .phi hperm (hop _ rfl)

/-- **The order of the edges of a phi is irrelevant.** Take two programs that differ only in the
order of the edges inside phis, where every phi names each block at most once. They are verified
together, and an engine in any state does the same with both: whatever is called with whatever
arguments, after any number of steps both runs are still going on, or both have ended with the
same value or with the same fault at the same location, and both leave the same cells, the
same global variables, the same natives and the same output. -/
theorem Engine.phi_edge_order_irrelevant {e : Engine} {q : Program}
    (h : e.program.Like Operation.Reordered q)
    (hphis : ∀ f ∈ e.program.functions, ∀ i, f.Has i → ∀ es, i.op = .phi es →
      (es.map PhiEdge.pred).Nodup) :
    (q.verify = .ok () ↔ e.program.verify = .ok ()) ∧
      ∀ fuel callee args,
        (e.on q).call fuel callee args =
          ((e.call fuel callee args).1, (e.call fuel callee args).2.on q) := by
  have hvariant : e.program.Like (Operation.Variant e.program) q :=
    h.imp_of_mem fun f hf b hb i hi _ hop => hop.variant (hphis f hf i ⟨b, hb, hi⟩)
  exact ⟨hvariant.verify_iff, call_on hvariant⟩

/-- A phi with its edges in reverse order. -/
def Operation.reverseEdges : Operation → Operation
  | .phi es => .phi es.reverse
  | op => op

theorem Operation.reordered_reverseEdges (op : Operation) : op.Reordered op.reverseEdges := by
  cases op with
  | phi es => exact .phi es.reverse_perm.symm
  | _ => exact .same _

/-- The loop that counts down, entered in two ways: with the edges of its phi exchanged, it fails
at the same instruction on the same round. -/
theorem Engine.phi_edge_order_irrelevant_countdown :
    ((Engine.new Countdown.program .unlimited).call 20 (.function 0)
        [.int (.ofInt .int 2)]).1 = some (.error ⟨.divisionByZero, some ⟨"main", 1, 2⟩⟩) ∧
      ((Countdown.program.mapOps Operation.reverseEdges).verify = .ok () ↔
        Countdown.program.verify = .ok ()) ∧
      ∀ fuel callee args,
        ((Engine.new Countdown.program .unlimited).on
            (Countdown.program.mapOps Operation.reverseEdges)).call fuel callee args =
          (((Engine.new Countdown.program .unlimited).call fuel callee args).1,
            ((Engine.new Countdown.program .unlimited).call fuel callee args).2.on
              (Countdown.program.mapOps Operation.reverseEdges)) := by
  refine ⟨rfl, phi_edge_order_irrelevant (e := Engine.new Countdown.program .unlimited)
    (Program.like_mapOps Operation.reordered_reverseEdges _) ?_⟩
  rintro f hf i ⟨b, hb, hi⟩ es hop
  cases List.mem_singleton.mp hf
  obtain ⟨-, rfl⟩ := Countdown.phi_main hb hi hop
  decide

end SsaMachine
