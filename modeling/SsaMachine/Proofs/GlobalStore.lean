import SsaMachine.Proofs.Session

set_option autoImplicit false

/-! # The life of the global variables

The host may ask for the global variables to be created as often as it likes, also for different
programs, and read and write them in between. This file follows a store of global variables
through any such sequence of requests (`GlobalStore.life_cycle`). Its life has two phases.

* **Before the first success** nothing is there. A request to create variables fails exactly
  when some variable is of a type without a zero value, and then nothing has happened, so that
  after any number of failures the store is what it was in the beginning.
* **The first success** creates a cell for each variable, and **after it** the cells stay where
  they are. A further request to create variables is granted without an effect, whatever
  the variables, and a variable holds the value that was last written to it.

The second phase rests on one property of the cells, that no two variables share one
(`Globals.Apart`): a write to a variable is then invisible through every other name.
-/

namespace SsaMachine

/-! ## Requests -/

/-- The global variables, and the memory that their cells are in. -/
structure GlobalStore where
  globals : Globals
  memory : Memory

/-- The store before the first request; the memory may have cells of another origin. -/
def GlobalStore.new (m : Memory) : GlobalStore :=
  ⟨.empty, m⟩

/-- What the host can ask of a store. -/
inductive GlobalStore.Request where
  | setUp (vars : List Global)
  | read (name : String)
  | write (name : String) (v : Value)

/-- The request is to create variables. -/
def GlobalStore.Request.IsSetUp (r : Request) : Prop :=
  ∃ vars, r = .setUp vars

/-- The request is to write to the variable `name`. -/
def GlobalStore.Request.Writes (name : String) (r : Request) : Prop :=
  ∃ v, r = .write name v

/-- The value of a variable. -/
def GlobalStore.read (s : GlobalStore) (name : String) : Except Fault Value :=
  s.globals.read s.memory name

/-- Whether a request succeeds, and the store after it. -/
def GlobalStore.serve (s : GlobalStore) : Request → Except Fault Unit × GlobalStore
  | .setUp vars =>
    match s.globals.setUp vars s.memory with
    | .error fault => (.error fault, s)
    | .ok (globals, memory) => (.ok (), ⟨globals, memory⟩)
  | .read name => ((s.read name).map fun _ => (), s)
  | .write name v =>
    match s.globals.write s.memory name v with
    | .error fault => (.error fault, s)
    | .ok memory => (.ok (), { s with memory := memory })

/-- The request succeeds. -/
def GlobalStore.Grants (s : GlobalStore) (r : Request) : Prop :=
  (s.serve r).1 = .ok ()

/-- The store after a sequence of requests, each of which may succeed or fail. -/
def GlobalStore.after (s : GlobalStore) (rs : List Request) : GlobalStore :=
  rs.foldl (fun s r => (s.serve r).2) s

/-- No request of the sort `P` succeeds in the course of the sequence. -/
def GlobalStore.NoneGranted (P : Request → Prop) : GlobalStore → List Request → Prop
  | _, [] => True
  | s, r :: rs => (P r → ¬ s.Grants r) ∧ NoneGranted P (s.serve r).2 rs

theorem GlobalStore.after_cons (s : GlobalStore) (r : Request) (rs : List Request) :
    s.after (r :: rs) = (s.serve r).2.after rs := rfl

theorem GlobalStore.after_append (s : GlobalStore) (rs rs' : List Request) :
    s.after (rs ++ rs') = (s.after rs).after rs' :=
  List.foldl_append

/-! ## Before the first success -/

/-- Nothing is known: the variables have not been created, and every use of one fails. -/
structure GlobalStore.Blank (s : GlobalStore) : Prop where
  initialized : s.globals.initialized = false
  address : ∀ name, s.globals.address name = .error (.unknownGlobal name)
  read : ∀ name, s.read name = .error (.unknownGlobal name)
  write : ∀ name v, s.serve (.write name v) = (.error (.unknownGlobal name), s)

theorem GlobalStore.blank_new (m : Memory) : (new m).Blank :=
  ⟨rfl, fun _ => rfl, fun _ => rfl, fun _ _ => rfl⟩

/-- A failed request to create variables changes nothing. -/
theorem GlobalStore.serve_setUp_of_not_grants {s : GlobalStore} {vars : List Global}
    (h : ¬ s.Grants (.setUp vars)) : (s.serve (.setUp vars)).2 = s := by
  simp only [Grants, serve] at h ⊢
  split
  · rfl
  · rename_i hok
    rw [hok] at h
    exact absurd rfl h

/-- A request that does not create the variables leaves a blank store as it is. -/
theorem GlobalStore.Blank.serve_eq {s : GlobalStore} (h : s.Blank) {r : Request}
    (hr : r.IsSetUp → ¬ s.Grants r) : (s.serve r).2 = s := by
  cases r with
  | setUp vars => exact serve_setUp_of_not_grants (hr ⟨vars, rfl⟩)
  | read name => rfl
  | write name v => rw [h.write name v]

theorem GlobalStore.Blank.after_eq {s : GlobalStore} (h : s.Blank) {rs : List Request}
    (hrs : NoneGranted Request.IsSetUp s rs) : s.after rs = s := by
  induction rs with
  | nil => rfl
  | cons r rs ih =>
      obtain ⟨hr, hrest⟩ := hrs
      have hsame : (s.serve r).2 = s := h.serve_eq hr
      rw [hsame] at hrest
      rw [after_cons, hsame]
      exact ih hrest

/-! ## The first success -/

/-- The type has a zero value. -/
def Ty.HasZero (t : Ty) : Prop :=
  ∃ v, t.zero = .ok v

theorem Ty.zero_of_not_hasZero {t : Ty} (h : ¬ t.HasZero) :
    t.zero = .error (.noZeroValue t.defaulted) := by
  unfold zero
  split
  · rename_i v hv
    exact absurd ⟨v, by simp [zero, hv]⟩ h
  · rfl

theorem Globals.allocate_of_not_hasZero {vars : List Global} (h : ∃ x ∈ vars, ¬ x.ty.HasZero)
    (cells : List (String × Address)) (m : Memory) :
    ∃ t, allocate cells m vars = .error (.noZeroValue t) := by
  induction vars generalizing cells m with
  | nil =>
      obtain ⟨x, hx, -⟩ := h
      cases hx
  | cons y ys ih =>
      by_cases hy : y.ty.HasZero
      · -- the first variable has a zero value, so it is another one that has none
        obtain ⟨v, hv⟩ := hy
        have hrest : ∃ x ∈ ys, ¬ x.ty.HasZero := by
          obtain ⟨x, hx, hnot⟩ := h
          rcases List.mem_cons.mp hx with rfl | hmem
          · exact absurd ⟨v, hv⟩ hnot
          · exact ⟨x, hmem, hnot⟩
        obtain ⟨t, ht⟩ := ih hrest ((y.name, (m.alloc v).1) :: cells) (m.alloc v).2
        exact ⟨t, by simpa [allocate, hv] using ht⟩
      · exact ⟨y.ty.defaulted, by simp [allocate, Ty.zero_of_not_hasZero hy]⟩

theorem Globals.allocate_of_hasZero {vars : List Global} (h : ∀ x ∈ vars, x.ty.HasZero)
    (cells : List (String × Address)) (m : Memory) :
    ∃ cells' m', allocate cells m vars = .ok (cells', m') := by
  induction vars generalizing cells m with
  | nil => exact ⟨cells, m, rfl⟩
  | cons y ys ih =>
      obtain ⟨v, hv⟩ := h y List.mem_cons_self
      obtain ⟨cells', m', hrest⟩ := ih (fun x hx => h x (List.mem_cons_of_mem _ hx))
        ((y.name, (m.alloc v).1) :: cells) (m.alloc v).2
      exact ⟨cells', m', by simpa [allocate, hv] using hrest⟩

/-- The store holds exactly these variables, each with its zero value, in cells of their own. -/
structure GlobalStore.HoldsZeros (s : GlobalStore) (vars : List Global) : Prop where
  initialized : s.globals.initialized = true
  known : ∀ x ∈ vars, ∃ a, s.globals.address x.name = .ok a
  unknown : ∀ name, name ∉ vars.map Global.name →
    s.globals.address name = .error (.unknownGlobal name)
  zero : ∀ x ∈ vars, ∃ v, x.ty.zero = .ok v ∧ s.read x.name = .ok v
  apart : ∀ x ∈ vars, ∀ y ∈ vars, x.name ≠ y.name →
    s.globals.address x.name ≠ s.globals.address y.name

theorem GlobalStore.read_of_address {s : GlobalStore} {name : String} {a : Address}
    (h : s.globals.address name = .ok a) : s.read name = s.memory.read a := by
  unfold read Globals.read
  rw [h]
  rfl

theorem GlobalStore.read_of_address_eq_error {s : GlobalStore} {name : String} {fault : Fault}
    (h : s.globals.address name = .error fault) : s.read name = .error fault := by
  unfold read Globals.read
  rw [h]
  rfl

/-- What is created for some variables is a store that holds them. -/
theorem Globals.Creates.holdsZeros {vars : List Global} {m m' : Memory}
    {cells : List (String × Address)} (h : Creates vars [] m cells m') :
    GlobalStore.HoldsZeros ⟨⟨true, cells⟩, m'⟩ vars := by
  have haddress : ∀ x ∈ vars, ∃ a v, address ⟨true, cells⟩ x.name = .ok a ∧
      cells.lookup x.name = some a ∧ x.ty.zero = .ok v ∧ m'.content? a = some v := by
    intro x hx
    obtain ⟨a, v, ha, -, hzero, hv⟩ := h.zeros x hx
    exact ⟨a, v, address_eq_ok_iff.mpr ha, ha, hzero, hv⟩
  refine ⟨rfl, fun x hx => ?_, fun name hname => ?_, fun x hx => ?_, fun x hx y hy hne heq => ?_⟩
  · obtain ⟨a, -, ha, -⟩ := haddress x hx
    exact ⟨a, ha⟩
  · simp [address, h.others name hname]
  · obtain ⟨a, v, ha, -, hzero, hv⟩ := haddress x hx
    exact ⟨v, hzero, (GlobalStore.read_of_address ha).trans (Memory.read_eq_ok_iff.mpr hv)⟩
  · obtain ⟨a, -, ha, hla, -⟩ := haddress x hx
    obtain ⟨b, -, hb, hlb, -⟩ := haddress y hy
    have hab : a = b := Except.ok.inj (ha.symm.trans (heq.trans hb))
    exact h.apart x hx y hy hne (by rw [hla, hlb, hab])

/-- What is promised of a store in which no variables have been created: it is blank, and it
fails to create variables exactly when one of them has no zero value, in which case nothing
happens. -/
structure GlobalStore.Awaits (s : GlobalStore) : Prop extends s.Blank where
  fails_iff : ∀ vars, (∃ t, (s.serve (.setUp vars)).1 = .error (.noZeroValue t)) ↔
    ∃ x ∈ vars, ¬ x.ty.HasZero
  unchanged : ∀ vars, ¬ s.Grants (.setUp vars) → (s.serve (.setUp vars)).2 = s
  succeeds : ∀ vars, (vars.map Global.name).Nodup → (∀ x ∈ vars, x.ty.HasZero) →
    ∃ s', s.serve (.setUp vars) = (.ok (), s') ∧ s'.HoldsZeros vars

theorem GlobalStore.Blank.serve_setUp_eq_error {s : GlobalStore} (h : s.Blank)
    {vars : List Global} (hvars : ∃ x ∈ vars, ¬ x.ty.HasZero) :
    ∃ t, s.serve (.setUp vars) = (.error (.noZeroValue t), s) := by
  obtain ⟨t, ht⟩ := Globals.allocate_of_not_hasZero hvars [] s.memory
  exact ⟨t, by simp [serve, Globals.setUp, h.initialized, ht]⟩

theorem GlobalStore.Blank.serve_setUp_eq_ok {s : GlobalStore} (h : s.Blank)
    {vars : List Global} (hvars : ∀ x ∈ vars, x.ty.HasZero) :
    ∃ cells m, Globals.allocate [] s.memory vars = .ok (cells, m) ∧
      s.serve (.setUp vars) = (.ok (), ⟨⟨true, cells⟩, m⟩) := by
  obtain ⟨cells, m, hall⟩ := Globals.allocate_of_hasZero hvars [] s.memory
  exact ⟨cells, m, hall, by simp [serve, Globals.setUp, h.initialized, hall]⟩

theorem GlobalStore.Blank.awaits {s : GlobalStore} (h : s.Blank) : s.Awaits := by
  refine ⟨h, fun vars => ⟨?_, ?_⟩, fun vars => serve_setUp_of_not_grants, fun vars hnd hvars => ?_⟩
  · rintro ⟨t, ht⟩
    by_contra hcon
    have hvars : ∀ x ∈ vars, x.ty.HasZero := by
      intro x hx
      by_contra hx'
      exact hcon ⟨x, hx, hx'⟩
    obtain ⟨cells, m, -, hok⟩ := h.serve_setUp_eq_ok hvars
    rw [hok] at ht
    cases ht
  · intro hvars
    obtain ⟨t, ht⟩ := h.serve_setUp_eq_error hvars
    exact ⟨t, by rw [ht]⟩
  · obtain ⟨cells, m, hall, hok⟩ := h.serve_setUp_eq_ok hvars
    exact ⟨_, hok, (Globals.creates_of_allocate hnd hall).holdsZeros⟩

/-! ## After the first success -/

/-- No two names lead to one cell. -/
def Globals.Apart (g : Globals) : Prop :=
  ∀ name name' a, g.address name = .ok a → g.address name' = .ok a → name = name'

theorem GlobalStore.HoldsZeros.globals_apart {s : GlobalStore} {vars : List Global}
    (h : s.HoldsZeros vars) : s.globals.Apart := by
  have hmem : ∀ {name a}, s.globals.address name = .ok a → ∃ x ∈ vars, x.name = name := by
    intro name a ha
    by_contra hcon
    have hname : name ∉ vars.map Global.name := by
      intro hin
      obtain ⟨x, hx, heq⟩ := List.mem_map.mp hin
      exact hcon ⟨x, hx, heq⟩
    rw [h.unknown name hname] at ha
    cases ha
  intro name name' a ha ha'
  obtain ⟨x, hx, rfl⟩ := hmem ha
  obtain ⟨y, hy, rfl⟩ := hmem ha'
  by_contra hne
  exact h.apart x hx y hy hne (ha.trans ha'.symm)

section Lasting

variable {s : GlobalStore} (hinit : s.globals.initialized = true)
include hinit

theorem GlobalStore.serve_setUp_of_initialized (vars : List Global) :
    s.serve (.setUp vars) = (.ok (), s) := by
  simp [serve, Globals.setUp, hinit]

/-- The cells of the variables are never replaced. -/
theorem GlobalStore.serve_globals (r : Request) : (s.serve r).2.globals = s.globals := by
  cases r with
  | setUp vars => rw [serve_setUp_of_initialized hinit]
  | read name => rfl
  | write name v =>
      simp only [serve]
      split <;> rfl

theorem GlobalStore.after_globals (rs : List Request) : (s.after rs).globals = s.globals := by
  induction rs generalizing s with
  | nil => rfl
  | cons r rs ih =>
      have hsame := serve_globals hinit r
      rw [after_cons, ih (by rw [hsame]; exact hinit), hsame]

/-- A variable keeps its value at every request that does not write to it. -/
theorem GlobalStore.read_serve (hapart : s.globals.Apart) {r : Request} {name : String}
    (hr : r.Writes name → ¬ s.Grants r) : (s.serve r).2.read name = s.read name := by
  cases r with
  | setUp vars => rw [serve_setUp_of_initialized hinit]
  | read name' => rfl
  | write name' v =>
      simp only [serve]
      split
      · rfl
      · rename_i m hm
        have hne : name' ≠ name := by
          rintro rfl
          exact hr ⟨v, rfl⟩ (by simp [Grants, serve, hm])
        obtain ⟨a, ha, hwrite⟩ := bind_eq_ok hm
        cases hb : s.globals.address name with
        | error fault =>
            rw [read_of_address_eq_error hb]
            exact read_of_address_eq_error hb
        | ok b =>
            -- the variable has a cell of its own
            have hba : b ≠ a := by
              rintro rfl
              exact hne (hapart name' name b ha hb)
            rw [read_of_address hb]
            refine (read_of_address (s := { s with memory := m }) hb).trans ?_
            unfold Memory.read
            rw [Memory.content?_write_of_ne hwrite hba]

theorem GlobalStore.read_after (hapart : s.globals.Apart) {rs : List Request} {name : String}
    (hrs : NoneGranted (Request.Writes name) s rs) : (s.after rs).read name = s.read name := by
  induction rs generalizing s with
  | nil => rfl
  | cons r rs ih =>
      obtain ⟨hr, hrest⟩ := hrs
      have hsame := serve_globals hinit r
      have hinit' : (s.serve r).2.globals.initialized = true := by rw [hsame]; exact hinit
      have hapart' : (s.serve r).2.globals.Apart := by rw [hsame]; exact hapart
      rw [after_cons, ih hinit' hapart' hrest, read_serve hinit hapart hr]

end Lasting

/-- A written value is read. -/
theorem GlobalStore.read_serve_write {s : GlobalStore} {name : String} {v : Value}
    (h : s.Grants (.write name v)) : (s.serve (.write name v)).2.read name = .ok v := by
  simp only [Grants, serve] at h ⊢
  split at h
  · cases h
  · rename_i m hm
    obtain ⟨a, ha, hwrite⟩ := bind_eq_ok hm
    refine (read_of_address (s := { s with memory := m }) ha).trans ?_
    exact Memory.read_eq_ok_iff.mpr (Memory.content?_write_self hwrite)

/-- What is promised of a store in which variables have been created, after any requests `rs`:
creating variables has no effect, each name leads to the cell it has led to from the beginning,
and the variable holds the value that was last written to it. -/
structure GlobalStore.Lasts (s : GlobalStore) (rs : List Request) : Prop where
  setUp : ∀ vars, (s.after rs).serve (.setUp vars) = (.ok (), s.after rs)
  address : ∀ name, (s.after rs).globals.address name = s.globals.address name
  unwritten : ∀ name, NoneGranted (Request.Writes name) s rs →
    (s.after rs).read name = s.read name
  written : ∀ before name v rest, rs = before ++ .write name v :: rest →
    (s.after before).Grants (.write name v) →
    NoneGranted (Request.Writes name) ((s.after before).serve (.write name v)).2 rest →
    (s.after rs).read name = .ok v

theorem GlobalStore.HoldsZeros.lasts {s : GlobalStore} {vars : List Global}
    (h : s.HoldsZeros vars) (rs : List Request) : s.Lasts rs := by
  have hglobals : ∀ rs, (s.after rs).globals = s.globals := after_globals h.initialized
  have hinit : ∀ rs, (s.after rs).globals.initialized = true := by
    intro rs
    rw [hglobals rs]
    exact h.initialized
  refine ⟨serve_setUp_of_initialized (hinit rs), fun name => by rw [hglobals],
    fun name => read_after h.initialized h.globals_apart, ?_⟩
  rintro before name v rest rfl hgrants hrest
  -- the store after the write is one that the requests lead to
  have hafter : ((s.after before).serve (.write name v)).2 =
      s.after (before ++ [.write name v]) := by
    rw [after_append]
    rfl
  have hapart : ((s.after before).serve (.write name v)).2.globals.Apart := by
    rw [hafter, hglobals]
    exact h.globals_apart
  have hinit' : ((s.after before).serve (.write name v)).2.globals.initialized = true := by
    rw [hafter]
    exact hinit _
  rw [after_append, after_cons, read_after hinit' hapart hrest]
  exact read_serve_write hgrants

/-! ## The whole life -/

/-- In a sequence of requests no variables are created, or there is a first time. -/
theorem GlobalStore.noneGranted_or_first (s : GlobalStore) (rs : List Request) :
    NoneGranted Request.IsSetUp s rs ∨
      ∃ before vars rest, rs = before ++ .setUp vars :: rest ∧
        NoneGranted Request.IsSetUp s before ∧ (s.after before).Grants (.setUp vars) := by
  induction rs generalizing s with
  | nil => exact .inl trivial
  | cons r rs ih =>
      by_cases hr : r.IsSetUp ∧ s.Grants r
      · obtain ⟨⟨vars, rfl⟩, hgrants⟩ := hr
        exact .inr ⟨[], vars, rs, rfl, trivial, hgrants⟩
      · have hnot : r.IsSetUp → ¬ s.Grants r := fun hset hgrants => hr ⟨hset, hgrants⟩
        rcases ih (s.serve r).2 with hnone | ⟨before, vars, rest, rfl, hbefore, hgrants⟩
        · exact .inl ⟨hnot, hnone⟩
        · exact .inr ⟨r :: before, vars, rest, rfl, ⟨hnot, hbefore⟩, hgrants⟩

/-- **The life of the global variables.** Take any sequence of requests to create variables, to
read and to write them, where no request to create variables names one twice. As long as none of
them has created variables, the store is what it was in the beginning, and it creates the
variables of the next such request exactly if all of them have zero values. If some request has
created variables, there is a first one; these and no others were known then, with their zero
values and in cells of their own; and since then each name leads to the same cell and holds
the value last written, whatever further creations were asked for. -/
theorem GlobalStore.life_cycle (m : Memory) (rs : List Request)
    (hnames : ∀ vars, .setUp vars ∈ rs → (vars.map Global.name).Nodup) :
    (new m).Awaits ∧
      ((NoneGranted Request.IsSetUp (new m) rs ∧ (new m).after rs = new m) ∨
        ∃ before vars rest s, rs = before ++ .setUp vars :: rest ∧
          NoneGranted Request.IsSetUp (new m) before ∧ (new m).after before = new m ∧
          (new m).serve (.setUp vars) = (.ok (), s) ∧ s.HoldsZeros vars ∧ s.Lasts rest) := by
  have hblank := blank_new m
  refine ⟨hblank.awaits, ?_⟩
  rcases noneGranted_or_first (new m) rs with hnone | ⟨before, vars, rest, hrs, hbefore, hgrants⟩
  · exact .inl ⟨hnone, hblank.after_eq hnone⟩
  · have hnd : (vars.map Global.name).Nodup := hnames vars (by simp [hrs])
    have hsame := hblank.after_eq hbefore
    rw [hsame] at hgrants
    -- the request was granted, so all of the variables have zero values
    have hvars : ∀ x ∈ vars, x.ty.HasZero := by
      intro x hx
      by_contra hnot
      obtain ⟨t, ht⟩ := hblank.serve_setUp_eq_error ⟨x, hx, hnot⟩
      rw [Grants, ht] at hgrants
      cases hgrants
    obtain ⟨s, hs, hzeros⟩ := hblank.awaits.succeeds vars hnd hvars
    exact .inr ⟨before, vars, rest, s, hrs, hbefore, hsame, hs, hzeros, hzeros.lasts rest⟩

/-- Requests in both phases: a creation that fails, a write that comes too early, a creation
that succeeds, two writes of which one fails, and a creation that comes too late. -/
def GlobalStore.sampleRequests : List Request :=
  [.setUp [⟨"none", .untyped .nil⟩], .write "count" (.int (.ofInt .int 1)),
   .setUp [⟨"count", .int .int⟩, ⟨"title", .string⟩], .write "count" (.int (.ofInt .int 42)),
   .setUp [⟨"flag", .bool⟩], .write "count" (.string "many"), .read "title"]

/-- The variables were created by the third request, and the first of them holds what the fourth
request has written. -/
theorem GlobalStore.life_cycle_sampleRequests :
    ((new .empty).after sampleRequests).read "count" = .ok (.int (.ofInt .int 42)) ∧
      (new .empty).Awaits ∧
      ((NoneGranted Request.IsSetUp (new .empty) sampleRequests ∧
          (new .empty).after sampleRequests = new .empty) ∨
        ∃ before vars rest s, sampleRequests = before ++ .setUp vars :: rest ∧
          NoneGranted Request.IsSetUp (new .empty) before ∧
          (new .empty).after before = new .empty ∧
          (new .empty).serve (.setUp vars) = (.ok (), s) ∧ s.HoldsZeros vars ∧
          s.Lasts rest) := by
  refine ⟨rfl, life_cycle .empty sampleRequests fun vars hvars => ?_⟩
  simp only [sampleRequests, List.mem_cons, Request.setUp.injEq, reduceCtorEq, false_or,
    List.not_mem_nil, or_false] at hvars
  rcases hvars with rfl | rfl | rfl <;> decide

end SsaMachine
