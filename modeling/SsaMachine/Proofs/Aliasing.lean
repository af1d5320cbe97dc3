import SsaMachine.Memory.Cells

set_option autoImplicit false

/-! # Cells are a typed store, whatever addresses they hold

An address can be copied, stored in cells, also in the cell that it leads to, and read back from
there, so one cell may be known in many places. This file says what reading and writing through
any of these addresses does, going only by what has been asked of the memory before
(`Memory.cells_are_typed_store`).

The history of a memory is the list of all requests with their answers (`Memory.Serves`). A request
can only mention addresses that it got from earlier answers: nobody makes up addresses. So an
address that is not null was once given out for a new cell, and this is the one invariant that takes
an argument (`Memory.Recorded.known`): addresses come back from cells, and into the cells only
addresses were stored that were given out before.

The memory compares kinds with what a cell holds at the time, and remembers nothing about its
creation. That a cell keeps the kind it was created with is therefore a fact about histories
(`Memory.Recorded.cell`).
-/

namespace SsaMachine

/-! ## Requests and histories -/

/-- What can be asked of the memory. -/
inductive Memory.Request where
  | create (v : Value)
  | copy (a : Address)
  | read (a : Address)
  | write (a : Address) (v : Value)

/-- The request uses the address, as the place of a cell or as the value to be stored. -/
def Memory.Request.Mentions (a : Address) : Request → Prop
  | .create v => v = .address a
  | .copy b => b = a
  | .read b => b = a
  | .write b v => b = a ∨ v = .address a

/-- The answer to a request, and the memory after it. -/
def Memory.serve (m : Memory) : Request → Except Fault Value × Memory
  | .create v => (.ok (.address (m.alloc v).1), (m.alloc v).2)
  | .copy a => (.ok (.address a), m)
  | .read a => (m.read a, m)
  | .write a v =>
    match m.write a v with
    | .error fault => (.error fault, m)
    | .ok m' => (.ok .unit, m')

/-- A request that was made, and its answer. -/
structure Memory.Event where
  request : Request
  answer : Except Fault Value

/-- The address is null, or it was the answer to some request. -/
def Memory.Owns (log : List Event) (a : Address) : Prop :=
  a = .null ∨ ∃ e ∈ log, e.answer = .ok (.address a)

/-- The memory `m` has come from `m₀` by requests, the latest first, that mention only addresses
from the answers before them. -/
inductive Memory.Serves (m₀ : Memory) : List Event → Memory → Prop
  | start : Serves m₀ [] m₀
  | next {log : List Event} {m : Memory} (h : Serves m₀ log m) (r : Request)
      (hr : ∀ a, r.Mentions a → Owns log a) :
      Serves m₀ (⟨r, (m.serve r).1⟩ :: log) (m.serve r).2

/-- The cell at `a` was created with the value `w`. -/
def Memory.CreatedWith (log : List Event) (a : Address) (w : Value) : Prop :=
  ⟨.create w, .ok (.address a)⟩ ∈ log

/-- The value that the event has put into the cell at `a`, if it has: by creating it, or by a
write through `a` that was granted. -/
def Memory.Event.stored? (a : Address) (e : Event) : Option Value :=
  match e.request, e.answer with
  | .create v, .ok (.address b) => if b = a then some v else none
  | .write b v, .ok _ => if b = a then some v else none
  | _, _ => none

/-- The value that was put last into the cell at `a`. -/
def Memory.lastStored? (log : List Event) (a : Address) : Option Value :=
  log.findSome? (Event.stored? a)

/-! ## What a history records -/

/-- The history accounts for the cells: each address that is owned leads to a cell that was created,
once; the cell holds the value that was put last into it, which is of the kind of the first one,
and if it is an address, then one that is owned. -/
structure Memory.Recorded (m : Memory) (log : List Event) : Prop where
  known : ∀ a, Owns log a → a ≠ .null → ∃ w, CreatedWith log a w
  once : ∀ a w w', CreatedWith log a w → CreatedWith log a w' → w' = w
  cell : ∀ a w, CreatedWith log a w →
    ∃ v, lastStored? log a = some v ∧ m.content? a = some v ∧ v.kind = w.kind
  owned : ∀ a w b, CreatedWith log a w → m.content? a = some (.address b) → Owns log b

theorem Memory.recorded_start (m : Memory) : m.Recorded [] where
  known a h hne := by
    rcases h with rfl | ⟨e, he, -⟩
    · exact absurd rfl hne
    · cases he
  once _ _ _ h := by cases h
  cell _ _ h := by cases h
  owned _ _ _ h := by cases h

theorem Memory.owns_cons_iff {log : List Event} {e : Event} {a : Address} :
    Owns (e :: log) a ↔ e.answer = .ok (.address a) ∨ Owns log a := by
  simp only [Owns, List.mem_cons, exists_eq_or_imp]
  exact or_left_comm

theorem Memory.createdWith_cons_iff {log : List Event} {e : Event} {a : Address} {w : Value} :
    CreatedWith (e :: log) a w ↔ e = ⟨.create w, .ok (.address a)⟩ ∨ CreatedWith log a w := by
  rw [CreatedWith, List.mem_cons, eq_comm]
  rfl

theorem Memory.createdWith_cons_of_ne {log : List Event} {e : Event} {a : Address} {w : Value}
    (h : e ≠ ⟨.create w, .ok (.address a)⟩) : CreatedWith (e :: log) a w ↔ CreatedWith log a w :=
  createdWith_cons_iff.trans (or_iff_right h)

/-- An event that creates no cell and changes none is recorded, if the address that it answers,
if any, was owned before. -/
theorem Memory.Recorded.idle {m : Memory} {log : List Event} (h : m.Recorded log) {e : Event}
    (hstored : ∀ a, e.stored? a = none) (hanswer : ∀ a, e.answer = .ok (.address a) → Owns log a) :
    m.Recorded (e :: log) := by
  have hcreated : ∀ {a w}, CreatedWith (e :: log) a w → CreatedWith log a w := by
    intro a w hw
    refine (createdWith_cons_of_ne ?_).mp hw
    rintro rfl
    simpa [Event.stored?] using hstored a
  refine ⟨fun a ha hne => ?_, fun a w w' hw hw' => h.once a w w' (hcreated hw) (hcreated hw'),
    fun a w hw => ?_, fun a w b hw hb => owns_cons_iff.mpr (.inr (h.owned a w b (hcreated hw) hb))⟩
  · obtain ⟨w, hw⟩ := h.known a ((owns_cons_iff.mp ha).elim (hanswer a) id) hne
    exact ⟨w, List.mem_cons_of_mem _ hw⟩
  · obtain ⟨v, hv, hm, hkind⟩ := h.cell a w (hcreated hw)
    refine ⟨v, ?_, hm, hkind⟩
    rw [lastStored?, List.findSome?_cons, hstored a]
    exact hv

/-- A new cell has an address that was not owned before. -/
theorem Memory.Recorded.create {m : Memory} {log : List Event} (h : m.Recorded log) {v : Value}
    (hv : ∀ a, v = .address a → Owns log a) :
    (m.alloc v).2.Recorded (⟨.create v, .ok (.address (m.alloc v).1)⟩ :: log) := by
  have hnew : ∀ w, ¬ CreatedWith log (m.alloc v).1 w := by
    intro w hw
    obtain ⟨u, -, hm, -⟩ := h.cell _ w hw
    rw [content?_alloc_fst] at hm
    cases hm
  have hcases : ∀ {a w}, CreatedWith (⟨.create v, .ok (.address (m.alloc v).1)⟩ :: log) a w →
      (a = (m.alloc v).1 ∧ w = v) ∨ (a ≠ (m.alloc v).1 ∧ CreatedWith log a w) := by
    intro a w hw
    rcases createdWith_cons_iff.mp hw with heq | hw
    · simp only [Event.mk.injEq, Request.create.injEq, Except.ok.injEq, Value.address.injEq] at heq
      exact .inl ⟨heq.2.symm, heq.1.symm⟩
    · refine .inr ⟨?_, hw⟩
      rintro rfl
      exact hnew w hw
  refine ⟨fun a ha hne => ?_, fun a w w' hw hw' => ?_, fun a w hw => ?_, fun a w b hw hb => ?_⟩
  · rcases owns_cons_iff.mp ha with heq | hold
    · cases heq
      exact ⟨v, List.mem_cons_self⟩
    · obtain ⟨w, hw⟩ := h.known a hold hne
      exact ⟨w, List.mem_cons_of_mem _ hw⟩
  · rcases hcases hw with ⟨rfl, rfl⟩ | ⟨hne, hw⟩
    · rcases hcases hw' with ⟨-, rfl⟩ | ⟨hne, -⟩
      · rfl
      · exact absurd rfl hne
    · rcases hcases hw' with ⟨heq, -⟩ | ⟨-, hw'⟩
      · exact absurd heq hne
      · exact h.once a w w' hw hw'
  · rcases hcases hw with ⟨rfl, rfl⟩ | ⟨hne, hw⟩
    · exact ⟨w, by simp [lastStored?, Event.stored?], content?_alloc_self m w, rfl⟩
    · obtain ⟨u, hu, hm, hkind⟩ := h.cell a w hw
      refine ⟨u, ?_, content?_alloc_of_eq_some v hm, hkind⟩
      have hother : Event.stored? a ⟨.create v, .ok (.address (m.alloc v).1)⟩ = none :=
        if_neg (Ne.symm hne)
      rw [lastStored?, List.findSome?_cons, hother]
      exact hu
  · rcases hcases hw with ⟨rfl, rfl⟩ | ⟨hne, hw⟩
    · rw [content?_alloc_self] at hb
      exact owns_cons_iff.mpr (.inr (hv b (Option.some.inj hb)))
    · obtain ⟨u, -, hm, -⟩ := h.cell a w hw
      have hsame := content?_alloc_of_eq_some v hm
      rw [hb, ← hm] at hsame
      exact owns_cons_iff.mpr (.inr (h.owned a w b hw hsame.symm))

/-- A write that is granted replaces a value by one of its kind, and changes no other cell. -/
theorem Memory.Recorded.write {m m' : Memory} {log : List Event} (h : m.Recorded log)
    {c : Address} {v : Value} (hm : m.write c v = .ok m')
    (hv : ∀ a, v = .address a → Owns log a) :
    m'.Recorded (⟨.write c v, .ok .unit⟩ :: log) := by
  have hcreated : ∀ {a w}, CreatedWith (⟨.write c v, .ok .unit⟩ :: log) a w →
      CreatedWith log a w := by
    intro a w hw
    exact (createdWith_cons_of_ne fun heq => by cases heq).mp hw
  refine ⟨fun a ha hne => ?_, fun a w w' hw hw' => h.once a w w' (hcreated hw) (hcreated hw'),
    fun a w hw => ?_, fun a w b hw hb => ?_⟩
  · rcases owns_cons_iff.mp ha with heq | hold
    · cases heq
    · obtain ⟨w, hw⟩ := h.known a hold hne
      exact ⟨w, List.mem_cons_of_mem _ hw⟩
  · obtain ⟨u, hu, hcontent, hkind⟩ := h.cell a w (hcreated hw)
    by_cases hac : a = c
    · subst hac
      obtain ⟨id, old, rfl, hold, hsame, -⟩ := write_eq_ok_iff.mp hm
      have hou : old = u := Option.some.inj (hold.symm.trans hcontent)
      refine ⟨v, by simp [lastStored?, Event.stored?], content?_write_self hm, ?_⟩
      rw [← hkind, ← hou]
      exact (Value.sameKind_iff.mp hsame).symm
    · refine ⟨u, ?_, (content?_write_of_ne hm hac).trans hcontent, hkind⟩
      have hother : Event.stored? a ⟨.write c v, .ok .unit⟩ = none := if_neg (Ne.symm hac)
      rw [lastStored?, List.findSome?_cons, hother]
      exact hu
  · by_cases hac : a = c
    · subst hac
      rw [content?_write_self hm] at hb
      exact owns_cons_iff.mpr (.inr (hv b (Option.some.inj hb)))
    · rw [content?_write_of_ne hm hac] at hb
      exact owns_cons_iff.mpr (.inr (h.owned a w b (hcreated hw) hb))

/-- The step lemma: every request is recorded. -/
theorem Memory.Recorded.serve {m : Memory} {log : List Event} (h : m.Recorded log) (r : Request)
    (hr : ∀ a, r.Mentions a → Owns log a) :
    (m.serve r).2.Recorded (⟨r, (m.serve r).1⟩ :: log) := by
  cases r with
  | create v => exact h.create hr
  | copy a =>
      refine h.idle (fun b => rfl) fun b hb => ?_
      cases hb
      exact hr a rfl
  | read a =>
      refine h.idle (fun b => rfl) fun b hb => ?_
      have hcontent : m.content? a = some (.address b) := read_eq_ok_iff.mp hb
      have hne : a ≠ .null := by
        rintro rfl
        cases hcontent
      obtain ⟨w, hw⟩ := h.known a (hr a rfl) hne
      exact h.owned a w b hw hcontent
  | write a v =>
      simp only [Memory.serve]
      split
      · exact h.idle (fun b => rfl) fun b hb => by cases hb
      · rename_i m' hm
        exact h.write hm fun b hb => hr b (.inr hb)

/-- **Every history accounts for the cells.** -/
theorem Memory.Serves.recorded {m₀ m : Memory} {log : List Event} (h : m₀.Serves log m) :
    m.Recorded log := by
  induction h with
  | start => exact recorded_start m₀
  | next _ r hr ih => exact ih.serve r hr

/-! ## Reading and writing -/

/-- The address leads to a cell of the kind of `w`: what is read is the value that was put last into
it, a value of another kind is refused, and any other value is stored and changes no other cell. -/
structure Memory.IsCell (m : Memory) (log : List Event) (a : Address) (w : Value) : Prop where
  read : ∃ v, lastStored? log a = some v ∧ m.read a = .ok v
  refuses : ∀ v fault, m.write a v = .error fault ↔
    w.sameKind v = false ∧ fault = .typeMismatch .store w.kind v.kind
  accepts : ∀ v, w.sameKind v = true → ∃ m', m.write a v = .ok m' ∧ m'.read a = .ok v ∧
    ∀ b, b ≠ a → m'.content? b = m.content? b

theorem Memory.write_cell {m : Memory} {id : Nat} {old : Value} (h : m.cell? id = some old)
    (v : Value) :
    m.write (.cell id) v =
      if old.sameKind v then .ok ⟨m.cells.setIfInBounds id v⟩
      else .error (.typeMismatch .store old.kind v.kind) := by
  simp only [write, h]

theorem Memory.Recorded.isCell {m : Memory} {log : List Event} (h : m.Recorded log) {a : Address}
    {w : Value} (hw : CreatedWith log a w) : m.IsCell log a w := by
  obtain ⟨old, hlast, hold, hkind⟩ := h.cell a w hw
  have hsame : ∀ v, old.sameKind v = w.sameKind v := by
    intro v
    rw [Value.sameKind, Value.sameKind, hkind]
  cases a with
  | null => cases hold
  | cell id =>
      have hwrite := write_cell hold
      refine ⟨⟨old, hlast, read_eq_ok_iff.mpr hold⟩, fun v fault => ?_, fun v hv => ?_⟩
      · rw [hwrite v, hsame v, hkind]
        cases w.sameKind v <;> simp [eq_comm]
      · have hok : m.write (.cell id) v = .ok ⟨m.cells.setIfInBounds id v⟩ := by
          rw [hwrite v, hsame v, hv, if_pos rfl]
        exact ⟨_, hok, read_eq_ok_iff.mpr (content?_write_self hok),
          fun b hb => content?_write_of_ne hok hb⟩

/-- A request that fails changes nothing. -/
theorem Memory.serve_eq_self {m : Memory} {r : Request} {fault : Fault}
    (h : (m.serve r).1 = .error fault) : (m.serve r).2 = m := by
  cases r with
  | create v => cases h
  | copy a => rfl
  | read a => rfl
  | write a v =>
      simp only [serve] at h ⊢
      split at h
      · rfl
      · cases h

/-- **Cells are a typed store.** Take any sequence of requests that create cells, copy addresses,
read and write, where addresses come from nowhere but the answers. Every address that is owned and
not null was given out once, for a cell created with some value `w`. Reading through it, whichever
copy it is, gives the value that was put last into the cell, by a granted write through an equal
address or else by its creation. A write fails exactly if the value is not of the kind of `w`, and
otherwise changes this cell and no other, whatever value is stored. The null address is refused, for
reading and writing, and a request that fails changes nothing. -/
theorem Memory.cells_are_typed_store {m₀ m : Memory} {log : List Event} (h : m₀.Serves log m) :
    (∀ a, Owns log a → a ≠ .null →
        ∃ w, CreatedWith log a w ∧ (∀ w', CreatedWith log a w' → w' = w) ∧ m.IsCell log a w) ∧
      (m.read .null = .error .nilDereference ∧
        ∀ v, m.write .null v = .error .nilDereference) ∧
      ∀ r fault, (m.serve r).1 = .error fault → (m.serve r).2 = m := by
  have hrecorded := h.recorded
  refine ⟨fun a ha hne => ?_, ⟨rfl, fun v => rfl⟩, fun r fault => serve_eq_self⟩
  obtain ⟨w, hw⟩ := hrecorded.known a ha hne
  exact ⟨w, hw, fun w' => hrecorded.once a w w' hw, hrecorded.isCell hw⟩

/-- The history, the latest request first, of a cell that is made to lead to itself and then to a
new cell, which is written through a copy of the address that is read back. -/
def Memory.knot : List Event :=
  [⟨.write (.cell 1) (.bool true), .ok .unit⟩,
   ⟨.copy (.cell 1), .ok (.address (.cell 1))⟩,
   ⟨.read (.cell 0), .ok (.address (.cell 1))⟩,
   ⟨.write (.cell 0) (.address (.cell 1)), .ok .unit⟩,
   ⟨.create (.bool false), .ok (.address (.cell 1))⟩,
   ⟨.write (.cell 0) (.address (.cell 0)), .ok .unit⟩,
   ⟨.create (.address .null), .ok (.address (.cell 0))⟩]

theorem Memory.serves_knot : empty.Serves knot ⟨#[.address (.cell 1), .bool true]⟩ := by
  have h₀ : empty.Serves [] empty := .start
  have h₁ := h₀.next (.create (.address .null)) <| by
    rintro a ⟨⟩
    exact .inl rfl
  have h₂ := h₁.next (.write (.cell 0) (.address (.cell 0))) <| by
    rintro a (rfl | ⟨⟨⟩⟩) <;> exact .inr ⟨_, .head _, rfl⟩
  have h₃ := h₂.next (.create (.bool false)) fun a ha => by cases ha
  have h₄ := h₃.next (.write (.cell 0) (.address (.cell 1))) <| by
    rintro a (rfl | ⟨⟨⟩⟩)
    · exact .inr ⟨_, .tail _ (.tail _ (.head _)), rfl⟩
    · exact .inr ⟨_, .head _, rfl⟩
  have h₅ := h₄.next (.read (.cell 0)) <| by
    rintro a rfl
    exact .inr ⟨_, .tail _ (.tail _ (.tail _ (.head _))), rfl⟩
  have h₆ := h₅.next (.copy (.cell 1)) <| by
    rintro a rfl
    exact .inr ⟨_, .head _, rfl⟩
  have h₇ := h₆.next (.write (.cell 1) (.bool true)) <| by
    rintro a (rfl | ⟨⟨⟩⟩)
    exact .inr ⟨_, .head _, rfl⟩
  exact h₇

theorem Memory.cells_are_typed_store_knot :
    ∃ w, CreatedWith knot (.cell 0) w ∧ (∀ w', CreatedWith knot (.cell 0) w' → w' = w) ∧
      IsCell ⟨#[.address (.cell 1), .bool true]⟩ knot (.cell 0) w :=
  (cells_are_typed_store serves_knot).1 (.cell 0) (by simp [Owns, knot]) (by simp)

end SsaMachine
