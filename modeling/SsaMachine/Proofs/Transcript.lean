import Mathlib.Data.List.Induction
import SsaMachine.Proofs.Drafting
import SsaMachine.Proofs.SingleAssignment

set_option autoImplicit false

/-! # What a drafted body records

A body is drafted by a history of calls. While the history grows, the block that instructions go
to, the number of blocks and the next value change independently of each other. This file says
what is in the finished function by looking at the history alone
(`BodyDraft.finish_records_calls`): each instruction stands in the block that was current when it
was drafted, in the order of the history, as it was given, except that a phi also has the edges
that were added to its value later.

## The history as the state

The blocks, the current block and the next value are functions of the history
(`blocksAfter`, `currentAfter`, `valuesIn`), and so is what a block holds (`recorded`). That the
draft is exactly this (`BodyDraft.applyAll_start`) is an induction on the history from its end,
with one equation for the step (`BodyDraft.recorded_concat`): one more call first extends what is
already recorded, then records what it drafts itself.

A call that adds an edge looks for the value in all blocks and stops at the first instruction that
defines it. It may as well be applied to all of them (`BodyDraft.Fresh.apply_addPhiEdge`), since no
value is defined twice: that is `BodyDraft.Fresh`, and it is what makes the equation for the step
hold in this case.
-/

namespace SsaMachine

/-! ## Single calls -/

/-- The operation with some more edges, if it is a phi. -/
def Operation.withEdges (op : Operation) (es : List PhiEdge) : Operation :=
  match op with
  | .phi edges => .phi (edges ++ es)
  | _ => op

@[simp]
theorem Operation.withEdges_nil (op : Operation) : op.withEdges [] = op := by
  cases op <;> simp [withEdges]

namespace BodyDraft

/-- The operation that a call drafts, as it was given. -/
def Call.operation? : Call → Option Operation
  | .newBlock | .switchTo _ | .addPhiEdge _ _ => none
  | .store addr value => some (.store addr value)
  | .unary op x => some (.unary op x)
  | .binary op x y => some (.binary op x y)
  | .call callee args => some (.call callee args)
  | .convert ty x => some (.convert ty x)
  | .phi edges => some (.phi edges)
  | .ret results => some (.ret results)
  | .branch cond onTrue onFalse => some (.branch cond onTrue onFalse)
  | .jump target => some (.jump target)

/-- Whether a call produces a value. -/
def Call.defines : Call → Bool
  | .unary _ _ | .binary _ _ _ | .call _ _ | .convert _ _ | .phi _ => true
  | _ => false

/-- Whether a call opens a block. -/
def Call.opens : Call → Bool
  | .newBlock => true
  | _ => false

/-- The block that is current after a call, if it is `b` before. -/
def Call.currentFrom (b : BlockId) : Call → BlockId
  | .switchTo b' => b'
  | _ => b

/-- The edge that a call adds to the phi that defines `v`. -/
def Call.edgeFor? (v : ValueId) : Call → Option PhiEdge
  | .addPhiEdge w e => if w = v then some e else none
  | _ => none

/-- What a call makes of an instruction that is already there. -/
def Call.extend : Call → Instr → Instr
  | .addPhiEdge v e, i => if i.dest = some v then i.addEdge e else i
  | _, i => i

/-- The number that a call returns, if it produces a value. -/
def value? (d : BodyDraft) : Call → Option ValueId
  | .unary op x => some ((unary op x).run d).1
  | .binary op x y => some ((binary op x y).run d).1
  | .call callee args => some ((call callee args).run d).1
  | .convert ty x => some ((convert ty x).run d).1
  | .phi edges => some ((phi edges).run d).1
  | _ => none

theorem value?_eq (d : BodyDraft) (c : Call) :
    d.value? c = if c.defines then some d.nextValue else none := by
  cases c <;> rfl

theorem nextValue_apply (d : BodyDraft) (c : Call) :
    (d.apply c).nextValue = d.nextValue + c.defines.toNat := by
  cases c <;> rfl

/-- A call that drafts an instruction puts it into the current block, under the next number if it
produces a value. -/
theorem apply_eq_of_operation? (d : BodyDraft) {c : Call} {op : Operation}
    (h : c.operation? = some op) :
    d.apply c = { d.push ⟨if c.defines then some d.nextValue else none, op⟩ with
      nextValue := d.nextValue + c.defines.toNat } := by
  cases c <;> cases h <;> rfl

/-! ## Histories -/

/-- The draft after some calls. -/
def applyAll (d : BodyDraft) (cs : List Call) : BodyDraft :=
  cs.foldl apply d

/-- The numbers that some calls return, in order. -/
def returned (d : BodyDraft) : List Call → List ValueId
  | [] => []
  | c :: cs => (d.value? c).toList ++ (d.apply c).returned cs

/-- How many of some calls produce a value. -/
def valuesIn (cs : List Call) : Nat :=
  cs.countP Call.defines

/-- How many blocks there are after some calls. -/
def blocksAfter (cs : List Call) : Nat :=
  1 + cs.countP Call.opens

/-- The current block after some calls: the one that was switched to last. -/
def currentAfter (cs : List Call) : BlockId :=
  cs.foldl Call.currentFrom 0

/-- The edges that some calls add to the phi that defines `v`. -/
def edgesFor (v : ValueId) (cs : List Call) : List PhiEdge :=
  cs.filterMap (Call.edgeFor? v)

/-- The instruction that the call `c` drafts in a body with `p` parameters, as it is after the
calls `after`, when the calls `before` came first. -/
def instrOf? (p : Nat) (before : List Call) (c : Call) (after : List Call) : Option Instr :=
  let v : ValueId := p + valuesIn before
  c.operation?.map fun op =>
    ⟨if c.defines then some v else none, op.withEdges (edgesFor v after)⟩

/-- The instruction that the call `c` leaves in the block `b`: none while another block, or no
block, is the current one. -/
def placed? (p : Nat) (b : BlockId) (before : List Call) (c : Call) (after : List Call) :
    Option Instr :=
  if currentAfter before = b ∧ b < blocksAfter before then instrOf? p before c after else none

/-- The instructions that some calls leave in the block `b`, when the calls `before` came first. -/
def recordedFrom (p : Nat) (b : BlockId) (before : List Call) : List Call → List Instr
  | [] => []
  | c :: after => (placed? p b before c after).toList ++ recordedFrom p b (before ++ [c]) after

/-- The instructions that a history leaves in the block `b` of a body with `p` parameters. -/
def recorded (p : Nat) (b : BlockId) (cs : List Call) : List Instr :=
  recordedFrom p b [] cs

variable {p : Nat} {b : BlockId} {v : ValueId} {before after cs : List Call} {c c' : Call}

theorem applyAll_concat (d : BodyDraft) (cs : List Call) (c : Call) :
    d.applyAll (cs ++ [c]) = (d.applyAll cs).apply c := by
  simp [applyAll]

theorem Fresh.applyAll {d : BodyDraft} (h : d.Fresh) (cs : List Call) : (d.applyAll cs).Fresh := by
  induction cs generalizing d with
  | nil => exact h
  | cons c cs ih => exact ih (h.apply c)

@[simp]
theorem valuesIn_concat : valuesIn (cs ++ [c]) = valuesIn cs + c.defines.toNat := by
  cases h : c.defines <;> simp [valuesIn, h]

@[simp]
theorem blocksAfter_concat : blocksAfter (cs ++ [c]) = blocksAfter cs + c.opens.toNat := by
  cases h : c.opens <;> simp [blocksAfter, h, Nat.add_assoc]

@[simp]
theorem currentAfter_concat : currentAfter (cs ++ [c]) = c.currentFrom (currentAfter cs) := by
  simp [currentAfter]

@[simp]
theorem edgesFor_concat :
    edgesFor v (cs ++ [c]) = edgesFor v cs ++ (c.edgeFor? v).toList := by
  cases h : c.edgeFor? v <;> simp [edgesFor, h]

theorem blocksAfter_le_append : blocksAfter before ≤ blocksAfter (before ++ cs) := by
  simp [blocksAfter]

/-! ## One more call -/

theorem Call.extend_of_dest_none (c : Call) (op : Operation) :
    c.extend ⟨none, op⟩ = ⟨none, op⟩ := by
  cases c <;> rfl

/-- A call extends the instruction that defines `v` by the edge that it has for `v`. -/
theorem Call.extend_withEdges (c : Call) (v : ValueId) (op : Operation) (es : List PhiEdge) :
    c.extend ⟨some v, op.withEdges es⟩ =
      ⟨some v, op.withEdges (es ++ (c.edgeFor? v).toList)⟩ := by
  have hnone : op.withEdges es = op.withEdges (es ++ []) := by rw [List.append_nil]
  cases c with
  | addPhiEdge w e =>
      by_cases hw : w = v
      · subst hw
        cases op <;> simp [extend, edgeFor?, Instr.addEdge, Operation.withEdges]
      · have hw' : v ≠ w := fun h => hw h.symm
        simp [extend, edgeFor?, hw, hw']
  | _ => exact congrArg (Instr.mk (some v)) hnone

/-- Only calls that produce a value draft phis. -/
theorem Call.withEdges_of_not_defines {op : Operation} (h : c.operation? = some op)
    (hc : c.defines = false) (es : List PhiEdge) : op.withEdges es = op := by
  cases c <;> cases h <;> first | rfl | cases hc

/-- One more call extends the instruction of an earlier one. -/
theorem instrOf?_concat :
    instrOf? p before c (after ++ [c']) = (instrOf? p before c after).map c'.extend := by
  unfold instrOf?
  cases hop : c.operation? with
  | none => rfl
  | some op =>
      cases hc : c.defines with
      | false =>
          simp [Call.withEdges_of_not_defines hop hc, Call.extend_of_dest_none]
      | true => simp [Call.extend_withEdges]

theorem placed?_concat :
    placed? p b before c (after ++ [c']) = (placed? p b before c after).map c'.extend := by
  unfold placed?
  split
  · exact instrOf?_concat
  · rfl

theorem recordedFrom_concat :
    recordedFrom p b before (cs ++ [c]) =
      (recordedFrom p b before cs).map c.extend ++ (placed? p b (before ++ cs) c []).toList := by
  induction cs generalizing before with
  | nil => simp [recordedFrom]
  | cons a cs ih =>
      have hfirst : (placed? p b before a (cs ++ [c])).toList =
          (placed? p b before a cs).toList.map c.extend := by
        rw [placed?_concat]
        cases placed? p b before a cs <;> rfl
      simp only [List.cons_append, recordedFrom, hfirst, ih, List.map_append, List.append_assoc,
        List.nil_append]

/-- **One more call extends what a block holds, and leaves its own instruction behind it.** -/
theorem recorded_concat :
    recorded p b (cs ++ [c]) =
      (recorded p b cs).map c.extend ++ (placed? p b cs c []).toList :=
  recordedFrom_concat

/-- There is nothing in a block that was not opened. -/
theorem recordedFrom_eq_nil (h : blocksAfter (before ++ cs) ≤ b) :
    recordedFrom p b before cs = [] := by
  induction cs generalizing before with
  | nil => rfl
  | cons c cs ih =>
      have hle : blocksAfter before ≤ b := Nat.le_trans blocksAfter_le_append h
      have hplaced : placed? p b before c cs = none :=
        if_neg fun hb => Nat.not_lt_of_le hle hb.2
      have hrest : recordedFrom p b (before ++ [c]) cs = [] := by
        refine ih ?_
        rwa [List.append_assoc]
      simp [recordedFrom, hplaced, hrest]

/-! ## Adding an edge -/

/-- In a list without two elements that satisfy a condition, it is the same to change the first
one that does and to change all that do. -/
theorem modifyFirst_eq_map {α : Type} {c : α → Bool} {f : α → α} {l : List α}
    (h : l.Pairwise fun x y => ¬ (c x = true ∧ c y = true)) :
    modifyFirst c f l = l.map fun x => if c x then f x else x := by
  induction l with
  | nil => rfl
  | cons x xs ih =>
      obtain ⟨hx, hxs⟩ := List.pairwise_cons.mp h
      by_cases hc : c x
      · have hrest : (xs.map fun y => if c y then f y else y) = xs := by
          refine (List.map_congr_left fun y hy => ?_).trans (List.map_id xs)
          exact if_neg fun hcy => hx y hy ⟨hc, hcy⟩
        simp [modifyFirst, hc, hrest]
      · simp [modifyFirst, hc, ih hxs]

theorem Fresh.apply_addPhiEdge {d : BodyDraft} (h : d.Fresh) (v : ValueId) (e : PhiEdge) :
    d.apply (.addPhiEdge v e) =
      { d with blocks := d.blocks.map (·.map (Call.addPhiEdge v e).extend) } := by
  obtain ⟨hwithin, hacross⟩ := List.nodup_flatMap.mp h.nodup
  -- no two instructions of a block define the value, and no two blocks do
  have hinner : ∀ is ∈ d.blocks, modifyFirst (fun i => i.dest == some v) (·.addEdge e) is =
      is.map (Call.addPhiEdge v e).extend := by
    intro is his
    rw [modifyFirst_eq_map]
    · refine List.map_congr_left fun i _ => ?_
      simp [Call.extend]
    · refine (List.pairwise_filterMap.mp (hwithin is his)).imp fun hne hboth => ?_
      exact hne v (by simpa using hboth.1) v (by simpa using hboth.2) rfl
  have houter : d.blocks.Pairwise fun is js => ¬ ((is.any fun i => i.dest == some v) = true ∧
      (js.any fun i => i.dest == some v) = true) := by
    refine hacross.imp fun {is js} hdis hboth => ?_
    have hmem : ∀ is : List Instr, (is.any fun i => i.dest == some v) = true →
        v ∈ is.filterMap Instr.dest := by
      intro is his
      obtain ⟨i, hi, hv⟩ := List.any_eq_true.mp his
      exact List.mem_filterMap.mpr ⟨i, hi, by simpa using hv⟩
    exact hdis (hmem is hboth.1) (hmem js hboth.2)
  show { d with blocks := modifyFirst _ _ d.blocks } = _
  rw [modifyFirst_eq_map houter]
  congr 1
  refine List.map_congr_left fun is his => ?_
  split
  · exact hinner is his
  · rename_i hany
    refine ((List.map_congr_left fun i hi => ?_).trans (List.map_id is)).symm
    refine if_neg fun hv => hany ?_
    exact List.any_eq_true.mpr ⟨i, hi, by simp [hv]⟩

/-! ## The draft of a history -/

/-- The draft of a body that a history amounts to. -/
def ofHistory (id : FunctionId) (name : String) (params : List Param) (cs : List Call) :
    BodyDraft where
  id := id
  name := name
  params := params
  blocks := (List.range (blocksAfter cs)).map fun b => recorded params.length b cs
  current := currentAfter cs
  nextValue := params.length + valuesIn cs

/-- A call that drafts nothing only extends what is recorded. -/
theorem recorded_concat_of_operation?_eq_none (h : c.operation? = none) :
    recorded p b (cs ++ [c]) = (recorded p b cs).map c.extend := by
  have hplaced : placed? p b cs c [] = none := by simp [placed?, instrOf?, h]
  rw [recorded_concat, hplaced, Option.toList_none, List.append_nil]

/-- A call that drafts an instruction extends nothing that is recorded. -/
theorem recorded_concat_of_operation? {op : Operation} (h : c.operation? = some op) :
    recorded p b (cs ++ [c]) = recorded p b cs ++ (placed? p b cs c []).toList := by
  have hext : c.extend = fun i => i := by cases c <;> first | rfl | cases h
  rw [recorded_concat, hext, List.map_id']

/-- Drafting an instruction into the current block: what each block holds afterwards. -/
theorem modify_recorded {op : Operation} (h : c.operation? = some op) :
    ((List.range (blocksAfter cs)).map fun b => recorded p b cs).modify (currentAfter cs)
        (· ++ [⟨if c.defines then some (p + valuesIn cs) else none, op⟩]) =
      (List.range (blocksAfter cs)).map fun b => recorded p b (cs ++ [c]) := by
  refine List.ext_getElem? fun k => ?_
  rw [List.getElem?_modify, List.getElem?_map, List.getElem?_map]
  by_cases hk : k < blocksAfter cs
  · rw [List.getElem?_range hk]
    by_cases hcur : currentAfter cs = k
    · simp [recorded_concat_of_operation? h, placed?, instrOf?, h, hcur, hk, edgesFor]
    · simp [recorded_concat_of_operation? h, placed?, hcur]
  · simp [hk]

/-- The step: on the draft of a history, each call makes the draft of the longer history. -/
theorem apply_ofHistory {id : FunctionId} {name : String} {params : List Param}
    (hfresh : (ofHistory id name params cs).Fresh) (c : Call) :
    (ofHistory id name params cs).apply c = ofHistory id name params (cs ++ [c]) := by
  cases hop : c.operation? with
  | some op =>
      have hopens : c.opens = false := by cases c <;> first | rfl | cases hop
      have hcurrent : c.currentFrom (currentAfter cs) = currentAfter cs := by
        cases c <;> first | rfl | cases hop
      have hblocks := @modify_recorded params.length cs c op hop
      rw [apply_eq_of_operation? _ hop]
      simp only [ofHistory, push, hblocks, blocksAfter_concat, currentAfter_concat,
        valuesIn_concat, hopens, hcurrent, Bool.toNat_false, Nat.add_zero, Nat.add_assoc]
  | none =>
      have hsame : ∀ b, recorded params.length b (cs ++ [c]) =
          (recorded params.length b cs).map c.extend :=
        fun b => recorded_concat_of_operation?_eq_none hop
      cases c with
      | newBlock =>
          -- nothing can have been recorded in the block before it was there
          have hnew : recorded params.length (blocksAfter cs) cs = [] :=
            recordedFrom_eq_nil (Nat.le_refl _)
          have hid : ∀ is : List Instr, is.map Call.newBlock.extend = is := List.map_id'
          simp [apply, newBlock, StateT.run, ofHistory, hsame, hid, hnew, List.range_succ,
            Call.opens, Call.currentFrom, Call.defines]
      | switchTo b =>
          have hid : ∀ is : List Instr, is.map (Call.switchTo b).extend = is := List.map_id'
          simp [apply, switchTo, StateT.run, ofHistory, hsame, hid, Call.opens, Call.currentFrom,
            Call.defines]
      | addPhiEdge v e =>
          -- no value is defined twice, so the search for it is a map
          rw [hfresh.apply_addPhiEdge]
          simp [ofHistory, hsame, Call.opens, Call.currentFrom, Call.defines]
      | _ => cases hop

/-- **The draft after a history is the one that the history amounts to.** -/
theorem applyAll_start (id : FunctionId) (name : String) (params : List Param) (cs : List Call) :
    (start id name params).applyAll cs = ofHistory id name params cs := by
  induction cs using List.reverseRecOn with
  | nil => rfl
  | append_singleton cs c ih =>
      have hfresh := (fresh_start id name params).applyAll cs
      rw [ih] at hfresh
      rw [applyAll_concat, ih, apply_ofHistory hfresh]

/-! ## What is returned, what is lost, and what an edge changes -/

theorem returned_eq (d : BodyDraft) (cs : List Call) :
    d.returned cs = List.range' d.nextValue (valuesIn cs) := by
  induction cs generalizing d with
  | nil => rfl
  | cons c cs ih =>
      rw [returned, ih, value?_eq, nextValue_apply]
      cases hc : c.defines with
      | false => simp [valuesIn, hc]
      | true => simp [valuesIn, hc, List.range'_succ]

/-- While the current block does not exist, a call that drafts an instruction only uses up the
number of its value. -/
theorem apply_of_no_block (d : BodyDraft) {op : Operation} (hop : c.operation? = some op)
    (h : d.blocks.length ≤ d.current) :
    d.apply c = { d with nextValue := d.nextValue + c.defines.toNat } := by
  have hlost : ∀ i, d.push i = d := by
    intro i
    unfold push
    rw [List.modify_eq_self h]
  rw [apply_eq_of_operation? d hop, hlost]

theorem instr?_finish (d : BodyDraft) (k j : Nat) :
    d.finish.instr? k j = d.blocks[k]?.bind (·[j]?) := by
  rw [Function.instr?, block?_finish, Option.bind_map]
  rfl

/-- Adding an edge to a value that a recorded phi defines gives this phi one more edge, and
changes nothing else. -/
theorem Fresh.apply_addPhiEdge_of_phi {d : BodyDraft} (h : d.Fresh) {k j : Nat} {v : ValueId}
    {es : List PhiEdge} (hphi : d.finish.instr? k j = some ⟨some v, .phi es⟩) (e : PhiEdge) :
    d.apply (.addPhiEdge v e) =
      { d with blocks := d.blocks.modify k (·.set j ⟨some v, .phi (es ++ [e])⟩) } := by
  have honly := (Function.defines_of_nodup h.drafted.definitions_nodup hphi rfl).only
  simp only [instr?_finish] at hphi honly
  obtain ⟨is, his, hij⟩ := Option.bind_eq_some_iff.mp hphi
  rw [h.apply_addPhiEdge]
  congr 1
  refine List.ext_getElem? fun k' => ?_
  rw [List.getElem?_map, List.getElem?_modify]
  cases hk' : d.blocks[k']? with
  | none => rfl
  | some js =>
      refine congrArg some (List.ext_getElem? fun j' => ?_)
      rw [List.getElem?_map]
      by_cases hat : k' = k ∧ j' = j
      · obtain ⟨rfl, rfl⟩ := hat
        rw [his] at hk'
        cases hk'
        have hlt := (List.getElem?_eq_some_iff.mp hij).1
        simp [hij, List.getElem?_set_self hlt, Call.extend, Instr.addEdge]
      · have hset :
            (if k = k' then js.set j ⟨some v, .phi (es ++ [e])⟩ else js)[j']? = js[j']? := by
          split
          · rename_i hk
            refine List.getElem?_set_ne fun hj => hat ⟨hk.symm, hj.symm⟩
          · rfl
        -- an instruction at another position does not define the value
        have hsame : ∀ i, js[j']? = some i → (Call.addPhiEdge v e).extend i = i := by
          intro i hi
          refine if_neg fun hv => hat (honly k' j' i ?_ hv)
          rw [hk', Option.bind_some, hi]
        rw [hset]
        cases hi : js[j']? with
        | none => rfl
        | some i => exact congrArg some (hsame i hi)

/-- Adding an edge to a value that no recorded phi defines changes nothing. -/
theorem Fresh.apply_addPhiEdge_of_no_phi {d : BodyDraft} (h : d.Fresh) {v : ValueId}
    (hphi : ∀ k j es, d.finish.instr? k j ≠ some ⟨some v, .phi es⟩) (e : PhiEdge) :
    d.apply (.addPhiEdge v e) = d := by
  have hsame : ∀ is ∈ d.blocks, ∀ i ∈ is, (Call.addPhiEdge v e).extend i = i := by
    intro is his i hi
    obtain ⟨k, hk⟩ := List.mem_iff_getElem?.mp his
    obtain ⟨j, hj⟩ := List.mem_iff_getElem?.mp hi
    obtain ⟨dest, op⟩ := i
    refine ite_eq_right_iff.mpr fun hv => ?_
    subst hv
    cases op with
    | phi es =>
        refine absurd ?_ (hphi k j es)
        rw [instr?_finish, hk, Option.bind_some, hj]
    | _ => rfl
  have hblocks : d.blocks.map (·.map (Call.addPhiEdge v e).extend) = d.blocks := by
    refine (List.map_congr_left fun is his => ?_).trans (List.map_id d.blocks)
    exact (List.map_congr_left (hsame is his)).trans (List.map_id is)
  rw [h.apply_addPhiEdge, hblocks]

/-! ## The finished function -/

theorem instrs_finish_ofHistory {id : FunctionId} {name : String} {params : List Param} :
    ((ofHistory id name params cs).finish.block? b).map Block.instrs =
      if b < blocksAfter cs then some (recorded params.length b cs) else none := by
  rw [block?_finish, Option.map_map]
  show (((List.range (blocksAfter cs)).map fun b => recorded params.length b cs)[b]?).map _ = _
  rw [List.getElem?_map]
  by_cases hb : b < blocksAfter cs
  · rw [List.getElem?_range hb, if_pos hb]
    rfl
  · rw [List.getElem?_eq_none (by simpa using hb), if_neg hb]
    rfl

/-- **A finished body records exactly the calls that were made.** For every history of calls on a
body with `p` parameters:

* the calls that produce a value return `p`, `p + 1` and so on, in order, and the finished function
  counts the parameters and these values;
* there are the blocks that were opened, and each holds the instructions of the calls that were
  made while it was the current one, in order and as they were given, with the edges that were
  added to a phi by later calls at the end of its own;
* while the current block does not exist, a call that drafts an instruction changes nothing
  except that its value, if it produces one, uses up its number;
* at most one instruction defines a value. Adding an edge to the value of a recorded phi appends
  it to the edges of this phi and changes nothing else; adding one to another value changes
  nothing. -/
theorem finish_records_calls (id : FunctionId) (name : String) (params : List Param)
    (cs : List Call) :
    let d := (start id name params).applyAll cs
    ((start id name params).returned cs = List.range' params.length (valuesIn cs) ∧
      d.finish.name = name ∧ d.finish.params = params ∧
      d.finish.valueCount = params.length + valuesIn cs) ∧
    (∀ b, (d.finish.block? b).map Block.instrs =
      if b < blocksAfter cs then some (recorded params.length b cs) else none) ∧
    (∀ c op, c.operation? = some op → blocksAfter cs ≤ currentAfter cs →
      d.apply c = { d with nextValue := d.nextValue + c.defines.toNat }) ∧
    ∀ v e,
      (∀ k j es, d.finish.instr? k j = some ⟨some v, .phi es⟩ →
        (∀ k' j' i, d.finish.instr? k' j' = some i → i.dest = some v → k' = k ∧ j' = j) ∧
        d.apply (.addPhiEdge v e) =
          { d with blocks := d.blocks.modify k (·.set j ⟨some v, .phi (es ++ [e])⟩) }) ∧
      ((∀ k j es, d.finish.instr? k j ≠ some ⟨some v, .phi es⟩) →
        d.apply (.addPhiEdge v e) = d) := by
  intro d
  have hfresh : d.Fresh := (fresh_start id name params).applyAll cs
  have hd : d = ofHistory id name params cs := applyAll_start id name params cs
  clear_value d
  subst hd
  refine ⟨⟨returned_eq _ cs, rfl, rfl, rfl⟩, fun b => instrs_finish_ofHistory, ?_,
    fun v e => ⟨?_, ?_⟩⟩
  · intro c op hop hnone
    refine apply_of_no_block _ hop ?_
    simpa [ofHistory] using hnone
  · intro k j es hphi
    exact ⟨(Function.defines_of_nodup hfresh.drafted.definitions_nodup hphi rfl).only,
      hfresh.apply_addPhiEdge_of_phi hphi e⟩
  · intro hphi
    exact hfresh.apply_addPhiEdge_of_no_phi hphi e

/-- A loop counter drafted in the usual order: the phi comes before the value of its second edge.
Then the negation of the counter is lost, since there is no block 7. -/
def counting : List Call :=
  [.newBlock, .jump 1, .switchTo 1, .phi [⟨0, .int .int 0⟩],
    .binary .add (.value 1) (.value 0), .addPhiEdge 1 ⟨1, .value 2⟩, .jump 1,
    .switchTo 7, .unary .neg (.value 1)]

theorem finish_records_calls_counting :
    let d := (start 0 "count" [⟨"step", .int .int⟩]).applyAll counting
    ((start 0 "count" [⟨"step", .int .int⟩]).returned counting = [1, 2, 3] ∧
      d.finish.valueCount = 4) ∧
    (d.finish.block? 1).map Block.instrs = some
      [⟨some 1, .phi [⟨0, .int .int 0⟩, ⟨1, .value 2⟩]⟩,
        ⟨some 2, .binary .add (.value 1) (.value 0)⟩, ⟨none, .jump 1⟩] ∧
    d.apply (.call (.builtin "clock") []) = { d with nextValue := 5 } ∧
    d.apply (.addPhiEdge 1 ⟨5, .value 0⟩) = { d with blocks := d.blocks.modify 1 (·.set 0
      ⟨some 1, .phi [⟨0, .int .int 0⟩, ⟨1, .value 2⟩, ⟨5, .value 0⟩]⟩) } ∧
    d.apply (.addPhiEdge 3 ⟨5, .value 0⟩) = d := by
  obtain ⟨⟨hids, -, -, hcount⟩, hblocks, hlost, hedge⟩ :=
    finish_records_calls 0 "count" [⟨"step", .int .int⟩] counting
  refine ⟨⟨hids, hcount⟩, hblocks 1, hlost _ _ rfl (by decide), ?_, ?_⟩
  · exact ((hedge 1 ⟨5, .value 0⟩).1 1 0 _ rfl).2
  · refine (hedge 3 ⟨5, .value 0⟩).2 fun k j es h => ?_
    have hblocks : ((start 0 "count" [⟨"step", .int .int⟩]).applyAll counting).blocks =
        [[⟨none, .jump 1⟩], [⟨some 1, .phi [⟨0, .int .int 0⟩, ⟨1, .value 2⟩]⟩,
          ⟨some 2, .binary .add (.value 1) (.value 0)⟩, ⟨none, .jump 1⟩]] := rfl
    rw [instr?_finish, hblocks] at h
    obtain ⟨is, his, hi⟩ := Option.bind_eq_some_iff.mp h
    have hmem := List.mem_of_getElem? hi
    rcases List.mem_pair.mp (List.mem_of_getElem? his) with rfl | rfl <;> simp at hmem

end BodyDraft

end SsaMachine
