import SsaMachine.Proofs.Instruction
import SsaMachine.Proofs.Variant
import Mathlib.Data.List.Perm.Basic

set_option autoImplicit false

/-! # The phis at the head of a block are a parallel copy

The machine executes the phis at the head of a block in two passes: it reads the operand of each
phi in the frame as it finds it, and then binds the results one by one. Seen from outside this is
a single assignment to several slots (`Frame.Assigned`), in which the phis may exchange their values
in any way. The main statement is `Context.phi_group_is_parallel_copy`.

* **Reading** succeeds exactly when each phi has a value in the frame
  (`Context.readPhis_eq_ok_iff`), so it does not depend on where the block stands or in which order
  its phis are.
* **Binding** results for different slots is an assignment (`Frame.defineAll_assigned`). An
  assignment is determined by the set of its pairs (`Frame.Assigned.unique`), so neither does
  binding.
* **One after another.** If no phi reads the slot of one before it, then what the later phis read
  is not changed by executing the first, and the machine may as well execute them in order
  (`Context.inOrder_of_reads`).
-/

namespace SsaMachine

/-! ## Assignment -/

/-- The second frame is the first after the assignment of all pairs of `l` at once. -/
structure Frame.Assigned (f : Frame) (l : List (Option ValueId × Value)) (f' : Frame) : Prop where
  size_eq : f'.slots.size = f.slots.size
  block_eq : f'.block = f.block
  previous_eq : f'.previous = f.previous
  result_eq : f'.result = f.result
  assigned : ∀ d v, (some d, v) ∈ l → f'.value? d = some v
  kept : ∀ u, some u ∉ l.map Prod.fst → f'.value? u = f.value? u

/-- A frame is known by its values, once its size and the place of the call are. -/
theorem Frame.ext_value? {f g : Frame} (hsize : f.slots.size = g.slots.size)
    (hblock : f.block = g.block) (hprevious : f.previous = g.previous)
    (hresult : f.result = g.result) (hvalues : ∀ u, f.value? u = g.value? u) : f = g := by
  have hslots : f.slots = g.slots := by
    refine Array.ext hsize fun k hf hg => ?_
    simpa [value?, hf, hg] using hvalues k
  cases f
  cases g
  simp_all

/-- An assignment depends on its pairs only, not on their order. -/
theorem Frame.Assigned.unique {f f₁ f₂ : Frame} {l l' : List (Option ValueId × Value)}
    (h₁ : f.Assigned l f₁) (h₂ : f.Assigned l' f₂) (h : ∀ x, x ∈ l ↔ x ∈ l') : f₁ = f₂ := by
  refine ext_value? (h₁.size_eq.trans h₂.size_eq.symm) (h₁.block_eq.trans h₂.block_eq.symm)
    (h₁.previous_eq.trans h₂.previous_eq.symm) (h₁.result_eq.trans h₂.result_eq.symm) fun u => ?_
  by_cases hu : some u ∈ l.map Prod.fst
  · obtain ⟨⟨d, v⟩, hmem, rfl⟩ := List.mem_map.mp hu
    rw [h₁.assigned u v hmem, h₂.assigned u v ((h _).mp hmem)]
  · have hu' : some u ∉ l'.map Prod.fst := by
      intro hcon
      obtain ⟨x, hx, hxu⟩ := List.mem_map.mp hcon
      exact hu (List.mem_map.mpr ⟨x, (h x).mpr hx, hxu⟩)
    rw [h₁.kept u hu, h₂.kept u hu']

/-- Binding one result is the assignment of one pair. -/
theorem Frame.define_assigned {f f' : Frame} {dest : Option ValueId} {v : Value}
    (h : f.define dest v = .ok f') : f.Assigned [(dest, v)] f' := by
  cases dest with
  | none =>
      cases h
      exact ⟨rfl, rfl, rfl, rfl, fun d w hmem => (by simp at hmem), fun u _ => rfl⟩
  | some id =>
      have hother := fun {u : ValueId} => value?_bind_of_ne (k := u) h
      have hself := value?_bind_self h
      obtain ⟨-, rfl⟩ := bind_eq_ok_iff.mp h
      refine ⟨by simp, rfl, rfl, rfl, fun d w hmem => ?_, fun u hu => hother ?_⟩
      · obtain ⟨rfl, rfl⟩ : d = id ∧ w = v := by simpa using hmem
        exact hself
      · simpa using hu

/-- An assignment, and another after it that names none of its slots. -/
theorem Frame.Assigned.append {f g f' : Frame} {l l' : List (Option ValueId × Value)}
    (h : f.Assigned l g) (h' : g.Assigned l' f')
    (hdisjoint : ∀ u, some u ∈ l.map Prod.fst → some u ∉ l'.map Prod.fst) :
    f.Assigned (l ++ l') f' where
  size_eq := h'.size_eq.trans h.size_eq
  block_eq := h'.block_eq.trans h.block_eq
  previous_eq := h'.previous_eq.trans h.previous_eq
  result_eq := h'.result_eq.trans h.result_eq
  assigned d v hmem := by
    rcases List.mem_append.mp hmem with hmem | hmem
    · rw [h'.kept d (hdisjoint d (List.mem_map_of_mem hmem))]
      exact h.assigned d v hmem
    · exact h'.assigned d v hmem
  kept u hu := by
    rw [List.map_append, List.mem_append, not_or] at hu
    rw [h'.kept u hu.2, h.kept u hu.1]

/-- **Binding results for different slots one by one assigns them all at once.** -/
theorem Frame.defineAll_assigned {f f' : Frame} {l : List (Option ValueId × Value)}
    (hnodup : (l.filterMap Prod.fst).Nodup) (h : f.defineAll l = .ok f') : f.Assigned l f' := by
  induction l generalizing f with
  | nil =>
      cases h
      exact ⟨rfl, rfl, rfl, rfl, fun d v hmem => (by cases hmem), fun u _ => rfl⟩
  | cons dv rest ih =>
      obtain ⟨dest, v⟩ := dv
      cases hdef : f.define dest v with
      | error fault => simp [defineAll, hdef] at h
      | ok g =>
          have hrest : g.defineAll rest = .ok f' := by simpa [defineAll, hdef] using h
          have hnodup' : (rest.filterMap Prod.fst).Nodup := by
            refine hnodup.sublist ?_
            exact (List.sublist_cons_self _ _).filterMap _
          refine (define_assigned hdef).append (ih hnodup' hrest) fun u hu hcon => ?_
          -- the slot of the first pair is not named again
          obtain rfl : some u = dest := by simpa using hu
          have hfirst : (u :: rest.filterMap Prod.fst).Nodup := hnodup
          obtain ⟨x, hx, hxu⟩ := List.mem_map.mp hcon
          exact (List.nodup_cons.mp hfirst).1 (List.mem_filterMap.mpr ⟨x, hx, hxu⟩)

/-- There is a frame with the results bound when there is room for all of them. -/
theorem Frame.exists_defineAll {f : Frame} {l : List (Option ValueId × Value)}
    (h : ∀ id, some id ∈ l.map Prod.fst → id < f.slots.size) : ∃ f', f.defineAll l = .ok f' := by
  cases hdef : f.defineAll l with
  | ok f' => exact ⟨f', rfl⟩
  | error fault =>
      obtain ⟨id, hid, hle, -⟩ := defineAll_eq_error hdef
      exact absurd (h id hid) (Nat.not_lt_of_le hle)

/-! ## Reading -/

/-- The phi `i` has an edge from the block that was executed before, and `x` is its operand. Of
several such edges the first counts. -/
def Frame.Picks (f : Frame) (i : Instr) (x : Operand) : Prop :=
  ∃ edges e, i.op = .phi edges ∧ edges.find? (fun e => some e.pred == f.previous) = some e ∧
    e.operand = x

/-- The phi reads the value `v` in the frame, to be bound to `dest`. -/
def Context.Reads (c : Context) (f : Frame) (i : Instr) (dv : Option ValueId × Value) : Prop :=
  dv.1 = i.dest ∧ ∃ x, f.Picks i x ∧ c.eval f x = .ok dv.2

theorem Context.selectEdge_eq_ok_iff {c : Context} {f : Frame} {edges : List PhiEdge} {v : Value} :
    c.selectEdge f edges = .ok v ↔
      ∃ e, edges.find? (fun e => some e.pred == f.previous) = some e ∧
        c.eval f e.operand = .ok v := by
  unfold selectEdge
  cases edges.find? fun e => some e.pred == f.previous with
  | none => simp
  | some e => simp

theorem Context.reads_iff {c : Context} {f : Frame} {i : Instr} {edges : List PhiEdge}
    {dv : Option ValueId × Value} (hop : i.op = .phi edges) :
    c.Reads f i dv ↔ dv.1 = i.dest ∧ c.selectEdge f edges = .ok dv.2 := by
  rw [selectEdge_eq_ok_iff]
  constructor
  · rintro ⟨hdest, x, ⟨edges', e, hop', he, rfl⟩, hv⟩
    rw [hop] at hop'
    cases hop'
    exact ⟨hdest, e, he, hv⟩
  · rintro ⟨hdest, e, he, hv⟩
    exact ⟨hdest, e.operand, ⟨edges, e, hop, he, rfl⟩, hv⟩

/-- The phis at the head are read exactly when each of them has a value in the frame. -/
theorem Context.readPhis_eq_ok_iff {c : Context} {f : Frame} {name : String} {id : BlockId}
    {k : Nat} {is : List Instr} {values : List (Option ValueId × Value)} :
    c.readPhis f name id k is = .ok values ↔
      List.Forall₂ (c.Reads f) (is.takeWhile fun i => i.op.isPhi) values := by
  fun_induction readPhis c f name id k is generalizing values with
  | case1 => simp [eq_comm]
  | case2 k i rest edges hop fault hsel =>
      have hphi : i.op.isPhi = true := by rw [hop]; rfl
      simp [hphi, List.forall₂_cons_left_iff, reads_iff hop, hsel]
  | case3 k i rest edges hop v hsel ih =>
      have hphi : i.op.isPhi = true := by rw [hop]; rfl
      rw [List.takeWhile_cons, hphi, if_pos rfl, List.forall₂_cons_left_iff]
      cases hrest : c.readPhis f name id (k + 1) rest with
      | error failure =>
          have hnot : ∀ tail,
              ¬ List.Forall₂ (c.Reads f) (rest.takeWhile fun i => i.op.isPhi) tail := by
            intro tail htail
            rw [← ih, hrest] at htail
            cases htail
          simp [Except.map, hnot]
      | ok tail =>
          simp only [Except.map, Except.ok.injEq]
          constructor
          · rintro rfl
            exact ⟨(i.dest, v), tail, (reads_iff hop).mpr ⟨rfl, hsel⟩, ih.mp hrest, rfl⟩
          · rintro ⟨⟨d, w⟩, tail', hi, htail, rfl⟩
            obtain ⟨hd, hw⟩ := (reads_iff hop).mp hi
            rw [hsel] at hw
            rw [← ih, hrest] at htail
            cases htail
            cases hw
            cases hd
            rfl
  | case4 k i rest hop =>
      have hnot : i.op.isPhi = false := by
        cases hi : i.op with
        | phi edges => exact absurd hi (hop edges)
        | _ => rfl
      simp [hnot, eq_comm]

/-- Executing the phis at the head is reading all of them and then binding all results. -/
theorem Context.resolvePhis_eq_ok_iff {c : Context} {fn : Function} {f f' : Frame} {b : Block}
    {n : Nat} :
    c.resolvePhis fn f b = .ok (f', n) ↔
      ∃ values, List.Forall₂ (c.Reads f) b.headPhis values ∧ f.defineAll values = .ok f' ∧
        n = b.headPhis.length := by
  unfold resolvePhis
  cases hread : c.readPhis f fn.name b.id 0 b.instrs with
  | error failure =>
      have hnot : ∀ values, ¬ List.Forall₂ (c.Reads f) b.headPhis values := by
        intro values hvalues
        have hok : c.readPhis f fn.name b.id 0 b.instrs = .ok values :=
          readPhis_eq_ok_iff.mpr hvalues
        rw [hread] at hok
        cases hok
      simp [hnot]
  | ok values =>
      have hvalues : List.Forall₂ (c.Reads f) b.headPhis values := readPhis_eq_ok_iff.mp hread
      constructor
      · intro h
        cases hdef : f.defineAll values with
        | error fault => simp [hdef] at h
        | ok g =>
            obtain ⟨rfl, rfl⟩ : g = f' ∧ values.length = n := by simpa [hdef] using h
            exact ⟨values, hvalues, hdef, hvalues.length_eq.symm⟩
      · rintro ⟨values', hvalues', hdef, rfl⟩
        have hok : c.readPhis f fn.name b.id 0 b.instrs = .ok values' :=
          readPhis_eq_ok_iff.mpr hvalues'
        rw [hread] at hok
        cases hok
        simp [hdef, hvalues.length_eq]

/-! ## Room for the results -/

/-- The instructions define values that the frame has room for, and none of them twice. -/
structure Frame.RoomFor (f : Frame) (is : List Instr) : Prop where
  nodup : (is.filterMap Instr.dest).Nodup
  lt : ∀ v ∈ is.filterMap Instr.dest, v < f.slots.size

theorem Context.map_fst_of_reads {c : Context} {f : Frame} {is : List Instr}
    {values : List (Option ValueId × Value)} (h : List.Forall₂ (c.Reads f) is values) :
    values.map Prod.fst = is.map Instr.dest := by
  induction h with
  | nil => rfl
  | cons hi _ ih => rw [List.map_cons, List.map_cons, hi.1, ih]

/-- What is read for different slots of the frame is assigned to them at once. -/
theorem Frame.RoomFor.assigned {c : Context} {f f' : Frame} {is : List Instr}
    {values : List (Option ValueId × Value)} (hroom : f.RoomFor is)
    (hreads : List.Forall₂ (c.Reads f) is values) (h : f.defineAll values = .ok f') :
    f.Assigned values f' := by
  have hdests : values.filterMap Prod.fst = is.filterMap Instr.dest := by
    have hmap := congrArg (List.filterMap id) (Context.map_fst_of_reads hreads)
    simpa [List.filterMap_map] using hmap
  exact defineAll_assigned (hdests ▸ hroom.nodup) h

theorem Frame.RoomFor.perm {f : Frame} {is is' : List Instr} (h : f.RoomFor is)
    (hperm : is'.Perm is) : f.RoomFor is' where
  nodup := (hperm.filterMap _).nodup_iff.mpr h.nodup
  lt v hv := h.lt v ((hperm.filterMap _).mem_iff.mp hv)

/-- The results of the phis can be bound in any order, and the frame is always the same. -/
theorem Frame.RoomFor.defineAll_perm {c : Context} {f f' : Frame} {is is' : List Instr}
    {values values' : List (Option ValueId × Value)} (hroom : f.RoomFor is)
    (hperm : is'.Perm is) (hreads : List.Forall₂ (c.Reads f) is values)
    (hreads' : List.Forall₂ (c.Reads f) is' values') (hvalues : values'.Perm values)
    (h : f.defineAll values = .ok f') : f.defineAll values' = .ok f' := by
  have hroom' := hroom.perm hperm
  obtain ⟨g, hg⟩ : ∃ g, f.defineAll values' = .ok g := by
    refine exists_defineAll fun id hid => hroom'.lt id ?_
    rw [Context.map_fst_of_reads hreads'] at hid
    obtain ⟨i, hi, hdest⟩ := List.mem_map.mp hid
    exact List.mem_filterMap.mpr ⟨i, hi, hdest⟩
  have hassigned := hroom.assigned hreads h
  have hassigned' := hroom'.assigned hreads' hg
  rw [hg, hassigned'.unique hassigned fun x => hvalues.mem_iff]

/-- In a well-formed function, every block leaves room for what its phis define. -/
theorem Program.BodyWellFormed.roomFor {p : Program} {f : Function} {b : Block} {g : Frame}
    (hf : p.BodyWellFormed f) (hb : b ∈ f.blocks) (hsize : g.slots.size = f.valueCount) :
    g.RoomFor b.headPhis where
  nodup := by
    have hdests := (List.nodup_append.mp hf.definitions_nodup).2.1
    have hblock := (List.nodup_flatMap.mp hdests).1 b hb
    exact hblock.sublist ((List.takeWhile_sublist _).filterMap _)
  lt v hv := by
    obtain ⟨i, hi, hdest⟩ := List.mem_filterMap.mp hv
    rw [hsize]
    exact hf.dest_lt hb ((List.takeWhile_prefix _).subset hi) hdest

/-! ## One after another -/

/-- Executing the instructions one after another, control proceeding after each, leads from the
first frame and memory to the second. -/
inductive Context.InOrder (c : Context) : Frame → Memory → List Instr → Frame → Memory → Prop
  | nil (f : Frame) (m : Memory) : InOrder c f m [] f m
  | cons {f g f' : Frame} {m n m' : Memory} {i : Instr} {is : List Instr}
      (h : c.execute f m i = .ok (.proceed g n)) (hrest : InOrder c g n is f' m') :
      InOrder c f m (i :: is) f' m'

theorem Context.eval_of_kept {c : Context} {f g : Frame} {x : Operand}
    (h : ∀ v, x = .value v → g.value? v = f.value? v) : c.eval g x = c.eval f x := by
  cases x with
  | value v => simp only [eval, Frame.lookup, h v rfl]
  | constant k => rfl
  | global id => rfl

theorem Frame.picks_congr {f g : Frame} (h : g.previous = f.previous) {i : Instr} {x : Operand} :
    g.Picks i x ↔ f.Picks i x := by
  unfold Picks
  rw [h]

/-- A phi that does not read the slot just bound reads what it would have read before. -/
theorem Context.Reads.of_assigned {c : Context} {f g : Frame} {d : Option ValueId} {v : Value}
    {i : Instr} {dv : Option ValueId × Value} (h : c.Reads f i dv) (hg : f.Assigned [(d, v)] g)
    (hindependent : ∀ u, d = some u → ¬ f.Picks i (.value u)) : c.Reads g i dv := by
  obtain ⟨hdest, x, hx, hv⟩ := h
  refine ⟨hdest, x, (Frame.picks_congr hg.previous_eq).mpr hx, ?_⟩
  rw [eval_of_kept, hv]
  rintro u rfl
  refine hg.kept u ?_
  have hne : d ≠ some u := fun hd => hindependent u hd hx
  simpa using hne.symm

/-- **Phis that do not read the slots of earlier ones can be executed one after another.** The
induction is over the phis, for any frame: what remains to be read is read after the first phi
as it was before. -/
theorem Context.inOrder_of_reads {c : Context} {f f' : Frame} {is : List Instr}
    {values : List (Option ValueId × Value)} (m : Memory)
    (hreads : List.Forall₂ (c.Reads f) is values) (hdef : f.defineAll values = .ok f')
    (hindependent : is.Pairwise fun i i' => ∀ u, i.dest = some u → ¬ f.Picks i' (.value u)) :
    c.InOrder f m is f' m := by
  induction is generalizing f values with
  | nil =>
      cases hreads
      cases hdef
      exact .nil _ m
  | cons i is ih =>
      obtain ⟨⟨d, v⟩, rest, hi, hrest, rfl⟩ := List.forall₂_cons_left_iff.mp hreads
      obtain ⟨hfirst, hothers⟩ := List.pairwise_cons.mp hindependent
      obtain ⟨edges, hop⟩ : ∃ edges, i.op = .phi edges := by
        obtain ⟨-, x, ⟨edges, -, hop, -⟩, -⟩ := hi
        exact ⟨edges, hop⟩
      obtain ⟨rfl, hsel⟩ := (reads_iff hop).mp hi
      cases hbind : f.define i.dest v with
      | error fault => simp [Frame.defineAll, hbind] at hdef
      | ok g =>
          have hg := Frame.define_assigned hbind
          have hdef' : g.defineAll rest = .ok f' := by simpa [Frame.defineAll, hbind] using hdef
          have hexecute : c.execute f m i = .ok (.proceed g m) := by
            simp only [execute, hop, hsel]
            show (f.define i.dest v >>= fun f => pure (Effect.proceed f m)) = _
            rw [hbind]
            rfl
          refine .cons hexecute (ih ?_ hdef' ?_)
          · have hboth := (List.forall₂_and_left is rest).mpr ⟨hfirst, hrest⟩
            exact hboth.imp fun i' dv h => h.2.of_assigned hg h.1
          · refine hothers.imp fun h u hu => ?_
            rw [Frame.picks_congr hg.previous_eq]
            exact h u hu

/-! ## The group as a whole -/

/-- **The phis at the head of a block are a parallel copy.** Take any function, frame and block such
that the phis at the head of the block define different slots of the frame, as far as they define
one, and suppose that executing them as a group succeeds. Then each of them has put the value of
the operand that it takes, evaluated in the frame before the group, into its slot; all other slots,
the current and the previous block are as before; and the count is the number of these phis. Any
other order of the phis leads to the same frame. So does executing them one after another, if none
takes the slot of an earlier one. -/
theorem Context.phi_group_is_parallel_copy {c : Context} {fn : Function} {f f' : Frame}
    {b : Block} {n : Nat} (hroom : f.RoomFor b.headPhis)
    (h : c.resolvePhis fn f b = .ok (f', n)) :
    (∀ i ∈ b.headPhis, ∃ x v, f.Picks i x ∧ c.eval f x = .ok v ∧
        ∀ d, i.dest = some d → f'.value? d = some v) ∧
      (∀ u, (∀ i ∈ b.headPhis, i.dest ≠ some u) → f'.value? u = f.value? u) ∧
      (f'.slots.size = f.slots.size ∧ f'.block = f.block ∧ f'.previous = f.previous ∧
        f'.result = f.result) ∧
      n = b.headPhis.length ∧
      (∀ (fn' : Function) (b' : Block), b'.headPhis.Perm b.headPhis →
        c.resolvePhis fn' f b' = .ok (f', n)) ∧
      ((b.headPhis.Pairwise fun i i' => ∀ u, i.dest = some u → ¬ f.Picks i' (.value u)) →
        ∀ m, c.InOrder f m b.headPhis f' m) := by
  obtain ⟨values, hreads, hdef, rfl⟩ := resolvePhis_eq_ok_iff.mp h
  have hassigned := hroom.assigned hreads hdef
  refine ⟨fun i hi => ?_, fun u hu => hassigned.kept u ?_,
    ⟨hassigned.size_eq, hassigned.block_eq, hassigned.previous_eq, hassigned.result_eq⟩, rfl,
    fun fn' b' hperm => ?_, fun hindependent m => inOrder_of_reads m hreads hdef hindependent⟩
  · obtain ⟨⟨d, v⟩, hmem, hdest, x, hx, hv⟩ := exists_of_forall₂_of_mem hreads.flip hi
    refine ⟨x, v, hx, hv, fun d' hd' => hassigned.assigned d' v ?_⟩
    rwa [← hd', ← hdest]
  · rw [map_fst_of_reads hreads]
    intro hcon
    obtain ⟨i, hi, hdest⟩ := List.mem_map.mp hcon
    exact hu i hi hdest
  · obtain ⟨values', hreads', hvalues⟩ := List.perm_comp_forall₂ hperm hreads
    refine resolvePhis_eq_ok_iff.mpr ⟨values', hreads', ?_, hperm.length_eq.symm⟩
    exact hroom.defineAll_perm hperm hreads hreads' hvalues hdef

namespace Rotation

/-- A loop that rotates three values; one of its phis has no slot. -/
def loop : Block :=
  ⟨1,
    [⟨some 1, .phi [⟨0, .int .int 1⟩, ⟨1, .value 2⟩]⟩,
     ⟨some 2, .phi [⟨0, .int .int 2⟩, ⟨1, .value 3⟩]⟩,
     ⟨none, .phi [⟨0, .value 0⟩, ⟨1, .value 1⟩]⟩,
     ⟨some 3, .phi [⟨0, .int .int 3⟩, ⟨1, .value 1⟩]⟩,
     ⟨none, .jump 1⟩], [0, 1], [1]⟩

/-- The same block with its phis in the reverse order. -/
def reversed : Block :=
  { loop with instrs := loop.headPhis.reverse ++ [⟨none, .jump 1⟩] }

def main : Function :=
  ⟨"main", [⟨"n", .int .int⟩], [⟨0, [⟨none, .jump 1⟩], [], [1]⟩, loop], 0, 4⟩

def context : Context :=
  ⟨⟨[], [main]⟩, .empty⟩

/-- The frame in which the loop is entered for the second time. -/
def before : Frame :=
  ⟨#[some (.int (.ofInt .int 7)), some (.int (.ofInt .int 1)), some (.int (.ofInt .int 2)),
    some (.int (.ofInt .int 3))], some 1, some 1, .unit⟩

/-- The same frame after the phis. -/
def after : Frame :=
  ⟨#[some (.int (.ofInt .int 7)), some (.int (.ofInt .int 2)), some (.int (.ofInt .int 3)),
    some (.int (.ofInt .int 1))], some 1, some 1, .unit⟩

end Rotation

/-- The values are rotated, also when the phis stand in the reverse order. -/
theorem Context.phi_group_is_parallel_copy_rotation :
    Rotation.before.RoomFor Rotation.loop.headPhis ∧
      Rotation.context.resolvePhis Rotation.main Rotation.before Rotation.loop
        = .ok (Rotation.after, 4) ∧
      (∀ i ∈ Rotation.loop.headPhis, ∃ x v, Rotation.before.Picks i x ∧
        Rotation.context.eval Rotation.before x = .ok v ∧
          ∀ d, i.dest = some d → Rotation.after.value? d = some v) ∧
      Rotation.context.resolvePhis Rotation.main Rotation.before Rotation.reversed
        = .ok (Rotation.after, 4) := by
  have hroom : Rotation.before.RoomFor Rotation.loop.headPhis := ⟨by decide, by decide⟩
  have hgroup : Rotation.context.resolvePhis Rotation.main Rotation.before Rotation.loop
      = .ok (Rotation.after, 4) := rfl
  obtain ⟨hcopied, -, -, -, hperm, -⟩ := phi_group_is_parallel_copy hroom hgroup
  have hheads : Rotation.reversed.headPhis = Rotation.loop.headPhis.reverse := rfl
  exact ⟨hroom, hgroup, hcopied, hperm _ _ (hheads ▸ List.reverse_perm _)⟩

end SsaMachine
