import Mathlib.Data.Nat.Fib.Basic
import SsaMachine.Proofs.Arithmetic
import SsaMachine.Proofs.Span
import SsaMachine.Sample

set_option autoImplicit false

/-! # The two Fibonacci samples

One sample prints the Fibonacci numbers in a loop, another computes one of them by recursion. Both
wrap around at 64 bits. This file runs them on the machine for every argument and finds that they
compute the same function (`Engine.fibonacci_samples_agree`).

Between two points where something unknown decides what happens, a run on unknown words is a
computation: such a stretch is stated with the frame before and after, and holds by evaluation.
What is unknown is the outcome of a comparison, what printing does to the resources, and the
callee's part of a recursive call. So a stretch ends there, and stretches are put together.

* **The loop.** The invariant at the header, before the comparison: when `i` rounds are done, the
  phis hold the Fibonacci numbers of `i` and `i + 1`, and `i` (`Fibonacci.AtHeader`). A round takes
  eight steps and prints one number (`Fibonacci.AtHeader.round`), and the induction is on the number
  of rounds.
* **The recursion.** A call hands its result to whatever waits for it and leaves the resources as
  they are. This is a strong induction on the argument, for all stacks of waiting calls at once
  (`Fibonacci.recursive_returns`), since the two inner calls wait above the outer one.

The words in the frames are cut from exact integers (`Fibonacci.word`). Cutting commutes with
addition, so the wrapping of intermediate results never shows.
-/

namespace SsaMachine

/-! ## Counting the visits of a block -/

/-- A call of the function with this name is about to execute the block from its head. -/
def State.startsBlock (s : State) (name : String) (id : BlockId) : Bool :=
  match s.status with
  | .running a _ => a.function.name == name && a.point == .head && a.frame.block == some id
  | .halted _ => false

/-- How many of the next `n` steps start the block. -/
def Context.visits (c : Context) (name : String) (id : BlockId) : (n : Nat) → State → Nat
  | 0, _ => 0
  | n + 1, s => (s.startsBlock name id).toNat + c.visits name id n (c.step s)

/-- Within `n` steps the run gets from `s` to `s'`, and it starts the block `count` times on its
way. -/
structure Context.Passes (c : Context) (name : String) (id : BlockId) (s : State)
    (n count : Nat) (s' : State) : Prop where
  run : c.run n s = s'
  visits : c.visits name id n s = count

section Visits

variable {c : Context} {name : String} {id : BlockId} {s s' s'' : State} {m n k l : Nat}

theorem Context.visits_add (m n : Nat) (s : State) :
    c.visits name id (m + n) s = c.visits name id m s + c.visits name id n (c.run m s) := by
  induction m generalizing s with
  | zero => rw [Nat.zero_add, visits, Nat.zero_add, run]
  | succ m ih =>
      rw [Nat.succ_add, visits, ih, visits, run_step, Nat.add_assoc]

/-- A run that has ended starts no block. -/
theorem Context.visits_of_result? {result : Except Failure Value} (h : s.result? = some result)
    (n : Nat) : c.visits name id n s = 0 := by
  induction n with
  | zero => rfl
  | succ n ih =>
      have hstarts : s.startsBlock name id = false := by
        obtain ⟨status, r⟩ := s
        cases status with
        | running a ws => cases h
        | halted result => rfl
      rw [visits, step_of_result? h, ih, hstarts]
      rfl

theorem Context.Passes.trans (h : c.Passes name id s m k s') (h' : c.Passes name id s' n l s'') :
    c.Passes name id s (m + n) (k + l) s'' where
  run := by rw [run_add, h.run, h'.run]
  visits := by rw [visits_add, h.visits, h.run, h'.visits]

/-- What is known about a run that has ended holds for any larger number of steps. -/
theorem Context.Passes.of_le {result : Except Failure Value} (h : c.Passes name id s m k s')
    (hend : s'.result? = some result) (hle : m ≤ n) : c.Passes name id s n k s' := by
  obtain ⟨l, rfl⟩ := Nat.exists_eq_add_of_le hle
  refine h.trans (l := 0) ⟨?_, visits_of_result? hend l⟩
  exact run_of_result? (n := 0) hend (Nat.zero_le l)

end Visits

/-! ## Printing -/

/-- A text can be printed: `print` is what it is in a new engine, whatever it was called before,
and the output accepts every write. -/
structure Resources.Prints (r : Resources) : Prop where
  native : ∃ calls, r.registry.find? "print" = some ⟨"print", .print, calls⟩
  room : r.sink.room = none
  flush : r.sink.flushFailure = none

/-- The output with one more text. -/
def Sink.extend (s : Sink) (text : String) : Sink :=
  { s with accepted := s.accepted ++ text.toUTF8 }

theorem Sink.extend_empty (s : Sink) : s.extend "" = s := by
  simp [extend, String.toUTF8]

theorem Sink.extend_extend (s : Sink) (a b : String) :
    (s.extend a).extend b = s.extend (a ++ b) := by
  simp [extend, String.toUTF8, ByteArray.append_assoc]

/-- Printing adds the texts of the arguments to the output, and leaves it able to print again. -/
theorem Resources.Prints.callNative {r : Resources} (h : r.Prints) (args : List Value) :
    ∃ r', r.callNative "print" args = (.ok .unit, r') ∧ r'.Prints ∧
      r'.sink = r.sink.extend (Value.joinTexts "" args) := by
  obtain ⟨calls, hfind⟩ := h.native
  have hwrite : r.sink.writeThrough (Value.joinTexts "" args) =
      (none, r.sink.extend (Value.joinTexts "" args)) := by
    simp [Sink.writeThrough, Sink.write, h.room, h.flush, Sink.extend]
  refine ⟨⟨r.memory, ⟨Registry.put ⟨"print", .print, calls + 1⟩ r.registry.entries⟩,
    r.sink.extend (Value.joinTexts "" args)⟩, ?_, ⟨?_, h.room, h.flush⟩, rfl⟩
  · simp [Resources.callNative, hfind, Native.print, Native.writing, hwrite]
  · exact ⟨calls + 1, Registry.find?_put ⟨"print", .print, calls + 1⟩ r.registry.entries⟩

namespace Fibonacci

/-! ## Numbers and words -/

/-- The Fibonacci number of `k`, wrapped to a signed integer of 64 bits. -/
def number (k : Nat) : Int :=
  (Nat.fib k : Int).bmod (2 ^ 64)

/-- The first `i` Fibonacci numbers, from the one of 1 on. -/
def numbers (i : Nat) : List Int :=
  (List.range i).map fun k => number (k + 1)

/-- Numbers as they are printed, each followed by a space. -/
def line (ns : List Int) : String :=
  String.join (ns.map fun n => toString n ++ " ")

/-- The value of type `int` that is cut from an integer. -/
def word (n : Int) : Value :=
  .int (.ofInt .int n)

theorem toInt_ofInt_fib (k : Nat) : (Word.ofInt .int (Nat.fib k)).toInt = number k :=
  BitVec.toInt_ofInt ..

theorem toInt_ofInt_of_inRange {n : Int} (h : IntType.int.InRange n) :
    (Word.ofInt .int n).toInt = n :=
  (((Word.wraps_ofInt .int n).unique n).mp ⟨h, Int.ModEq.refl n⟩).symm

/-- The integers between zero and the argument are of the type, too. -/
theorem inRange_of_le {m n : Int} (hn : IntType.int.InRange n) (hm : 0 ≤ m) (h : m ≤ max n 0) :
    IntType.int.InRange m := by
  obtain ⟨-, hle⟩ := hn
  have hgreatest : 0 ≤ IntType.int.greatest := by decide
  have hleast : IntType.int.least ≤ 0 := by decide
  constructor <;> omega

/-- Integers of the type are compared as the words that are cut from them. -/
theorem decide_toInt_lt {m n : Int} (hm : IntType.int.InRange m) (hn : IntType.int.InRange n) :
    decide ((Word.ofInt .int m).toInt < (Word.ofInt .int n).toInt) = decide (m < n) := by
  rw [toInt_ofInt_of_inRange hm, toInt_ofInt_of_inRange hn]

theorem word_add (m n : Int) :
    word (m + n) = .int ⟨.int, BitVec.ofInt 64 m + BitVec.ofInt 64 n⟩ := by
  rw [← BitVec.ofInt_add]
  rfl

theorem word_sub (m n : Int) :
    word (m - n) = .int ⟨.int, BitVec.ofInt 64 m - BitVec.ofInt 64 n⟩ := by
  rw [← ofInt_sub]
  rfl

theorem getLast?_numbers_succ (i : Nat) : (numbers (i + 1)).getLast? = some (number (i + 1)) := by
  simp [numbers, List.range_succ]

theorem line_numbers_succ (i : Nat) :
    line (numbers (i + 1)) = line (numbers i) ++ (toString (number (i + 1)) ++ " ") := by
  simp [line, numbers, List.range_succ]

/-- What is printed for a word and a space. -/
theorem joinTexts_word (k : Nat) :
    Value.joinTexts "" [word (Nat.fib k), .string " "] = toString (number k) ++ " " := by
  have htext : (word (Nat.fib k)).text = toString (number k) :=
    congrArg toString (toInt_ofInt_fib k)
  show (word (Nat.fib k)).text ++ "" ++ " " = _
  rw [htext, String.append_empty]

/-! ## The loop -/

/-- The function `fib` of the sample with the loop. -/
def loop : Function :=
  ⟨"fib", [⟨"n", .int .int⟩],
    [⟨0, [⟨none, .jump 1⟩], [], [1]⟩,
     ⟨1,
      [⟨some 1, .phi [⟨0, .int .int 0⟩, ⟨2, .value 2⟩]⟩,
       ⟨some 2, .phi [⟨0, .int .int 1⟩, ⟨2, .value 6⟩]⟩,
       ⟨some 3, .phi [⟨0, .int .int 0⟩, ⟨2, .value 7⟩]⟩,
       ⟨some 4, .binary (.compare .lt) (.value 3) (.value 0)⟩,
       ⟨none, .branch (.value 4) 2 3⟩], [0, 2], [2, 3]⟩,
     ⟨2,
      [⟨some 5, .call (.builtin "print") [.value 2, .string " "]⟩,
       ⟨some 6, .binary .add (.value 1) (.value 2)⟩,
       ⟨some 7, .binary .add (.value 3) (.int .int 1)⟩,
       ⟨none, .jump 1⟩], [1], [1]⟩,
     ⟨3, [⟨none, .ret []⟩], [1], []⟩], 0, 8⟩

/-- The body of the loop. -/
def body : BlockId := 2

/-- The sample with the loop declares `fib` after another function. -/
theorem exists_loop_sample : ∃ p, (Sample.find? "branch").map Sample.program = some (.ok p) ∧
    p.functionId? "fib" = some 1 ∧ p.target (.function 1) = .ok (.body loop) :=
  ⟨_, rfl, rfl, rfl⟩

/-- A frame of the loop: the argument, the values of the three phis, and the other slots. -/
def frame (block : BlockId) (previous : Option BlockId) (n t1 t2 k : Int)
    (rest : List (Option Value)) : Frame where
  slots := ⟨some (word n) :: some (word t1) :: some (word t2) :: some (word k) :: rest⟩
  block := some block
  previous := previous
  result := .unit

/-- The invariant of the loop: `i` rounds are done, and the comparison comes next. Nothing is said
about the slots that a round assigns before it reads them. -/
inductive AtHeader (ws : List Caller) (n : Int) (i : Nat) (r : Resources) : State → Prop
  | intro (previous : Option BlockId) (v₄ v₅ v₆ v₇ : Option Value) :
      AtHeader ws n i r ⟨.running ⟨loop,
        frame 1 previous n (Nat.fib i) (Nat.fib (i + 1)) i [v₄, v₅, v₆, v₇], .instr 3⟩ ws, r⟩

section Stretches

variable {c : Context} {ws : List Caller} {r r' : Resources} {previous : Option BlockId}
  {n t1 t2 k : Int} {v₄ v₅ v₆ v₇ : Option Value}

/-- From the entry to the header. -/
theorem passes_entry (c : Context) (ws : List Caller) (r : Resources) (n : Int) :
    ∃ a, Activation.enter loop [word n] = .ok a ∧
      c.Passes "fib" body ⟨.running a ws, r⟩ 3 0
        ⟨.running ⟨loop, frame 1 (some 0) n 0 1 0 [none, none, none, none], .instr 3⟩ ws, r⟩ :=
  ⟨_, rfl, rfl, rfl⟩

theorem passes_compare (hk : IntType.int.InRange k) (hn : IntType.int.InRange n) :
    c.Passes "fib" body
      ⟨.running ⟨loop, frame 1 previous n t1 t2 k [v₄, v₅, v₆, v₇], .instr 3⟩ ws, r⟩ 1 0
      ⟨.running ⟨loop, frame 1 previous n t1 t2 k [some (.bool (decide (k < n))), v₅, v₆, v₇],
        .instr 4⟩ ws, r⟩ := by
  -- the machine compares the words, and the rest is evaluation
  rw [← decide_toInt_lt hk hn]
  exact ⟨rfl, rfl⟩

/-- From the header into the body. -/
theorem passes_into_body (hk : IntType.int.InRange k) (hn : IntType.int.InRange n) (h : k < n) :
    c.Passes "fib" body
      ⟨.running ⟨loop, frame 1 previous n t1 t2 k [v₄, v₅, v₆, v₇], .instr 3⟩ ws, r⟩ 3 1
      ⟨.running ⟨loop, frame 2 (some 1) n t1 t2 k [some (.bool true), v₅, v₆, v₇],
        .instr 0⟩ ws, r⟩ := by
  refine (passes_compare hk hn).trans (n := 2) (l := 1) ?_
  rw [decide_eq_true h]
  exact ⟨rfl, rfl⟩

/-- From the header to the end. -/
theorem passes_done (hk : IntType.int.InRange k) (hn : IntType.int.InRange n) (h : n ≤ k) :
    c.Passes "fib" body
      ⟨.running ⟨loop, frame 1 previous n t1 t2 k [v₄, v₅, v₆, v₇], .instr 3⟩ ws, r⟩ 5 0
      (.deliver r .unit ws) := by
  refine (passes_compare hk hn).trans (n := 4) (l := 0) ?_
  rw [decide_eq_false (Int.not_lt.mpr h)]
  exact ⟨rfl, rfl⟩

/-- The call that prints. -/
theorem passes_print (h : r.callNative "print" [word t2, .string " "] = (.ok .unit, r')) :
    c.Passes "fib" body
      ⟨.running ⟨loop, frame 2 previous n t1 t2 k [v₄, v₅, v₆, v₇], .instr 0⟩ ws, r⟩ 1 0
      ⟨.running ⟨loop, frame 2 previous n t1 t2 k [v₄, some .unit, v₆, v₇],
        .instr 1⟩ ws, r'⟩ := by
  refine ⟨?_, rfl⟩
  -- evaluation gets stuck at the native, which depends on the resources
  show c.invoke r (.builtin "print") [word t2, .string " "]
    ⟨loop, frame 2 previous n t1 t2 k [v₄, v₅, v₆, v₇], 2, 0, some 5⟩ ws = _
  simp only [Context.invoke, Program.target, h]
  rfl

/-- From the printed number back to the header. -/
theorem passes_back :
    c.Passes "fib" body
      ⟨.running ⟨loop, frame 2 previous n t1 t2 k [v₄, v₅, v₆, v₇], .instr 1⟩ ws, r⟩ 4 0
      ⟨.running ⟨loop, frame 1 (some 2) n t2 (t1 + t2) (k + 1)
        [v₄, v₅, some (word (t1 + t2)), some (word (k + 1))], .instr 3⟩ ws, r⟩ := by
  simp only [frame, word_add]
  exact ⟨rfl, rfl⟩

end Stretches

section Rounds

variable {c : Context} {ws : List Caller} {r : Resources} {n : Int} {i : Nat} {s : State}

/-- The step lemma: a round of the loop. -/
theorem AtHeader.round (h : AtHeader ws n i r s) (hr : r.Prints) (hn : IntType.int.InRange n)
    (hi : i < n) :
    ∃ s' r', c.Passes "fib" body s 8 1 s' ∧ AtHeader ws n (i + 1) r' s' ∧ r'.Prints ∧
      r'.sink = r.sink.extend (toString (number (i + 1)) ++ " ") := by
  obtain ⟨previous, v₄, v₅, v₆, v₇⟩ := h
  obtain ⟨r', hprint, hr', hsink⟩ := hr.callNative [word (Nat.fib (i + 1)), .string " "]
  have hrange : IntType.int.InRange i := inRange_of_le hn (by omega) (by omega)
  have hfib : (Nat.fib i : Int) + Nat.fib (i + 1) = Nat.fib (i + 1 + 1) := by
    rw [Nat.fib_add_two]
    push_cast
    rfl
  refine ⟨_, r', ((passes_into_body hrange hn hi).trans (passes_print hprint)).trans passes_back,
    ?_, hr', ?_⟩
  · rw [hfib]
    exact .intro (some 2) _ _ _ _
  · rw [hsink, joinTexts_word]

/-- The run lemma: the first rounds of the loop. -/
theorem AtHeader.rounds (h : AtHeader ws n 0 r s) (hr : r.Prints) (hn : IntType.int.InRange n)
    (hi : (i : Int) ≤ max n 0) :
    ∃ s' r', c.Passes "fib" body s (8 * i) i s' ∧ AtHeader ws n i r' s' ∧ r'.Prints ∧
      r'.sink = r.sink.extend (line (numbers i)) := by
  induction i with
  | zero => exact ⟨s, r, ⟨rfl, rfl⟩, h, hr, (Sink.extend_empty r.sink).symm⟩
  | succ i ih =>
      -- the rounds before the last one, then the last one
      obtain ⟨s', r', hpasses, hs', hr', hsink⟩ := ih (by omega)
      obtain ⟨s'', r'', hround, hs'', hr'', hsink'⟩ := hs'.round (c := c) hr' hn (by omega)
      refine ⟨s'', r'', hpasses.trans hround, hs'', hr'', ?_⟩
      rw [hsink', hsink, Sink.extend_extend, line_numbers_succ]

theorem AtHeader.done (h : AtHeader ws n i r s) (hn : IntType.int.InRange n)
    (hi : (i : Int) = max n 0) : c.Passes "fib" body s 5 0 (.deliver r .unit ws) := by
  obtain ⟨previous, v₄, v₅, v₆, v₇⟩ := h
  exact passes_done (inRange_of_le hn (by omega) hi.le) hn (by omega)

/-- **The loop prints the first Fibonacci numbers and returns nothing.** -/
theorem loop_returns (c : Context) (ws : List Caller) (hr : r.Prints) (hn : IntType.int.InRange n) :
    ∃ a r', Activation.enter loop [word n] = .ok a ∧
      c.Passes "fib" body ⟨.running a ws, r⟩ (3 + 8 * n.toNat + 5) n.toNat
        (.deliver r' .unit ws) ∧
      r'.sink = r.sink.extend (line (numbers n.toNat)) := by
  obtain ⟨a, henter, hentry⟩ := passes_entry c ws r n
  have hstart : AtHeader ws n 0 r _ := .intro (some 0) none none none none
  obtain ⟨s, r', hrounds, hs, -, hsink⟩ := hstart.rounds (c := c) hr hn (i := n.toNat) (by omega)
  have hpasses := (hentry.trans hrounds).trans (hs.done hn (by omega))
  rw [Nat.zero_add, Nat.add_zero] at hpasses
  exact ⟨a, r', henter, hpasses, hsink⟩

end Rounds

/-! ## The recursion -/

/-- The function `fib` of the sample with the recursion. -/
def recursive : Function :=
  ⟨"fib", [⟨"n", .int .int⟩],
    [⟨0,
      [⟨some 1, .binary (.compare .lt) (.value 0) (.int .int 2)⟩,
       ⟨none, .branch (.value 1) 1 2⟩], [], [1, 2]⟩,
     ⟨1, [⟨none, .ret [.value 0]⟩], [0], []⟩,
     ⟨2,
      [⟨some 2, .binary .sub (.value 0) (.int .int 1)⟩,
       ⟨some 3, .binary .sub (.value 0) (.int .int 2)⟩,
       ⟨some 4, .call (.function 0) [.value 2]⟩,
       ⟨some 5, .call (.function 0) [.value 3]⟩,
       ⟨some 6, .binary .add (.value 4) (.value 5)⟩,
       ⟨none, .ret [.value 6]⟩], [0], []⟩], 0, 7⟩

theorem exists_recursive_sample :
    ∃ p, (Sample.find? "recursion").map Sample.program = some (.ok p) ∧
      p.functionId? "fib" = some 0 ∧ p.target (.function 0) = .ok (.body recursive) :=
  ⟨_, rfl, rfl, rfl⟩

/-- The result of the recursion before it is cut: the argument itself below 2. -/
def value (n : Int) : Int :=
  if n < 2 then n else Nat.fib n.toNat

/-- A frame of the recursion in the block that makes the calls, with the results of these. -/
def callFrame (n : Int) (a b : Option Value) : Frame where
  slots := #[some (word n), some (.bool false), some (word (n - 1)), some (word (n - 2)), a, b,
    none]
  block := some 2
  previous := some 0
  result := .unit

/-- The call of the recursion at its entry. -/
def entered (n : Int) : Activation :=
  ⟨recursive, ⟨#[some (word n), none, none, none, none, none, none], some 0, none, .unit⟩, .head⟩

theorem enter_recursive (n : Int) : Activation.enter recursive [word n] = .ok (entered n) := rfl

section Recursion

variable {c : Context} {ws : List Caller} {r : Resources} {n : Int}

theorem run_compare (hn : IntType.int.InRange n) :
    c.run 2 ⟨.running (entered n) ws, r⟩ = ⟨.running ⟨recursive,
      ⟨#[some (word n), some (.bool (decide (n < 2))), none, none, none, none, none], some 0, none,
        .unit⟩, .instr 1⟩ ws, r⟩ := by
  have htwo : IntType.int.InRange 2 := by decide
  rw [← decide_toInt_lt hn htwo]
  rfl

theorem run_base (hn : IntType.int.InRange n) (h : n < 2) :
    c.run 6 ⟨.running (entered n) ws, r⟩ = .deliver r (word n) ws := by
  rw [Context.run_add c 2 4, run_compare hn, decide_eq_true h]
  rfl

/-- From the entry to the first call. -/
theorem run_more (hn : IntType.int.InRange n) (h : 2 ≤ n) :
    c.run 6 ⟨.running (entered n) ws, r⟩ =
      ⟨.running ⟨recursive, callFrame n none none, .instr 2⟩ ws, r⟩ := by
  rw [Context.run_add c 2 4, run_compare hn, decide_eq_false (Int.not_lt.mpr h), callFrame,
    word_sub, word_sub]
  rfl

/-- From the second call to the end. -/
theorem run_sum (a b : Int) :
    c.run 3 ⟨.running ⟨recursive, callFrame n (some (word a)) (some (word b)), .instr 4⟩ ws, r⟩ =
      .deliver r (word (a + b)) ws := by
  rw [word_add]
  rfl

/-- Every call with the argument `n` hands over `v` and leaves the resources as they are. -/
def Returns (c : Context) (n : Int) (v : Value) : Prop :=
  ∀ ws r, ∃ k, c.run k ⟨.running (entered n) ws, r⟩ = .deliver r v ws

variable {v v' : Value}

/-- A step that makes the call leads to where the call has been answered. -/
theorem Returns.of_invoke {s : State} {w : Caller} (h : Returns c n v)
    (ht : c.program.target (.function 0) = .ok (.body recursive))
    (hs : c.run 1 s = c.invoke r (.function 0) [word n] w ws) :
    ∃ k, c.run k s = .deliver r v (w :: ws) := by
  have hcall : c.run 1 s = ⟨.running (entered n) (w :: ws), r⟩ := by
    rw [hs]
    simp only [Context.invoke, ht, enter_recursive]
  obtain ⟨k, hk⟩ := h (w :: ws) r
  refine ⟨1 + k, ?_⟩
  rw [Context.run_add, hcall, hk]

theorem Returns.first_call (h : Returns c (n - 1) v)
    (ht : c.program.target (.function 0) = .ok (.body recursive)) (ws : List Caller)
    (r : Resources) :
    ∃ k, c.run k ⟨.running ⟨recursive, callFrame n none none, .instr 2⟩ ws, r⟩ =
      ⟨.running ⟨recursive, callFrame n (some v) none, .instr 3⟩ ws, r⟩ :=
  h.of_invoke (w := ⟨recursive, callFrame n none none, 2, 2, some 4⟩) ht rfl

theorem Returns.second_call (h : Returns c (n - 2) v')
    (ht : c.program.target (.function 0) = .ok (.body recursive)) (ws : List Caller)
    (r : Resources) :
    ∃ k, c.run k ⟨.running ⟨recursive, callFrame n (some v) none, .instr 3⟩ ws, r⟩ =
      ⟨.running ⟨recursive, callFrame n (some v) (some v'), .instr 4⟩ ws, r⟩ :=
  h.of_invoke (w := ⟨recursive, callFrame n (some v) none, 2, 3, some 5⟩) ht rfl

theorem value_of_nonneg (h : 0 ≤ n) : value n = Nat.fib n.toNat := by
  unfold value
  split
  · obtain rfl | rfl : n = 0 ∨ n = 1 := by omega
    · rfl
    · rfl
  · rfl

theorem value_of_two_le (h : 2 ≤ n) : value n = value (n - 1) + value (n - 2) := by
  have hone : (n - 1).toNat = (n - 2).toNat + 1 := by omega
  have htwo : n.toNat = (n - 2).toNat + 2 := by omega
  rw [value_of_nonneg (by omega), value_of_nonneg (by omega), value_of_nonneg (by omega), htwo,
    hone, Nat.fib_add_two]
  push_cast
  omega

/-- **The recursion returns the Fibonacci number.** -/
theorem recursive_returns (ht : c.program.target (.function 0) = .ok (.body recursive))
    (hn : IntType.int.InRange n) : Returns c n (word (value n)) := by
  induction hm : n.toNat using Nat.strong_induction_on generalizing n with
  | _ m ih =>
      intro ws r
      by_cases h : n < 2
      · refine ⟨6, ?_⟩
        rw [run_base hn h, value, if_pos h]
      · have h : 2 ≤ n := Int.not_lt.mp h
        have hone : IntType.int.InRange (n - 1) := inRange_of_le hn (by omega) (by omega)
        have htwo : IntType.int.InRange (n - 2) := inRange_of_le hn (by omega) (by omega)
        -- the inner calls take numbers of steps that nothing is known about
        obtain ⟨k, hk⟩ := (ih (n - 1).toNat (by omega) hone rfl).first_call ht ws r
        obtain ⟨l, hl⟩ := (ih (n - 2).toNat (by omega) htwo rfl).second_call ht ws r
        refine ⟨6 + k + l + 3, ?_⟩
        calc c.run (6 + k + l + 3) ⟨.running (entered n) ws, r⟩
            = c.run 3 (c.run l (c.run k (c.run 6 ⟨.running (entered n) ws, r⟩))) := by
              rw [Context.run_add, Context.run_add, Context.run_add]
          _ = c.run 3 ⟨.running ⟨recursive, callFrame n (some (word (value (n - 1))))
                (some (word (value (n - 2)))), .instr 4⟩ ws, r⟩ := by
              rw [run_more hn h, hk, hl]
          _ = .deliver r (word (value n)) ws := by
              rw [run_sum, value_of_two_le h]

end Recursion

end Fibonacci

/-! ## Both samples -/

open Fibonacci

/-- **The two Fibonacci samples compute the same function.** For every integer `n` of type `int`:

* given an output that accepts every write, calling `fib` of the sample with the loop ends with the
  unit. It prints the wrapped Fibonacci numbers of 1 to `n`, each followed by a space, and nothing
  else; for this it starts the body of its loop `n` times, and not at all for `n ≤ 0`;
* calling `fib` of the sample with the recursion, on an engine in any state, ends with a word of
  type `int` and leaves the engine as it is. The word stands for `n` below 2, and for the wrapped
  Fibonacci number of `n` otherwise;
* from `n = 1` on, this is the last number that the loop prints. -/
theorem Engine.fibonacci_samples_agree {e e' : Engine} {n : Int}
    (he : (Sample.find? "branch").map Sample.program = some (.ok e.program))
    (he' : (Sample.find? "recursion").map Sample.program = some (.ok e'.program))
    (hprint : e.resources.Prints) (hn : IntType.int.InRange n) :
    (∃ id, e.program.functionId? "fib" = some id ∧ ∃ fuel, ∀ fuel' ≥ fuel,
      (e.call fuel' (.function id) [word n]).1 = some (.ok .unit) ∧
      (e.call fuel' (.function id) [word n]).2.resources.sink =
        e.resources.sink.extend (line (numbers n.toNat)) ∧
      e.context.visits "fib" body fuel' (e.context.start e.resources (.function id) [word n]) =
        n.toNat) ∧
    ∃ id', e'.program.functionId? "fib" = some id' ∧ ∃ w : Word,
      (∃ fuel, ∀ fuel' ≥ fuel, e'.call fuel' (.function id') [word n] = (some (.ok (.int w)), e')) ∧
      w.ty = .int ∧ w.toInt = (if n < 2 then n else number n.toNat) ∧
      (1 ≤ n → (numbers n.toNat).getLast? = some w.toInt) := by
  obtain ⟨p, hp, hid, ht⟩ := exists_loop_sample
  obtain ⟨q, hq, hid', ht'⟩ := exists_recursive_sample
  obtain rfl : p = e.program := Except.ok.inj (Option.some.inj (hp.symm.trans he))
  obtain rfl : q = e'.program := Except.ok.inj (Option.some.inj (hq.symm.trans he'))
  refine ⟨⟨1, hid, 3 + 8 * n.toNat + 5, fun fuel' hle => ?_⟩, 0, hid', .ofInt .int (value n),
    ?_, rfl, ?_, ?_⟩
  · obtain ⟨a, r', henter, hpasses, hsink⟩ := loop_returns e.context [] hprint hn
    have hend := hpasses.of_le (n := fuel') rfl hle
    rw [← Context.start_of_enter (c := e.context) ht henter] at hend
    refine ⟨?_, ?_, hend.visits⟩
    · simp only [call, hend.run]
      rfl
    · simp only [call, hend.run]
      exact hsink
  · obtain ⟨k, hk⟩ := recursive_returns (c := e'.context) ht' hn [] e'.resources
    rw [← Context.start_of_enter (c := e'.context) ht' (enter_recursive n)] at hk
    have hcall : e'.call k (.function 0) [word n] =
        (some (.ok (.int (.ofInt .int (value n)))), e') := by
      simp only [call, hk]
      rfl
    refine ⟨k, fun fuel' hle => ?_⟩
    rw [call_of_le (congrArg Prod.fst hcall) hle, hcall]
  · by_cases h : n < 2
    · rw [value, if_pos h, if_pos h, toInt_ofInt_of_inRange hn]
    · rw [value, if_neg h, if_neg h, toInt_ofInt_fib]
  · intro h
    obtain ⟨m, rfl⟩ : ∃ m : Nat, n = m + 1 := ⟨(n - 1).toNat, by omega⟩
    have hm : ((m : Int) + 1).toNat = m + 1 := by omega
    rw [value_of_nonneg (by omega), hm, toInt_ofInt_fib, getLast?_numbers_succ]

/-- On new engines, for the first Fibonacci number that does not fit. -/
theorem Engine.fibonacci_samples_agree_wrapped : ∃ p q,
    (Sample.find? "branch").map Sample.program = some (.ok p) ∧
    (Sample.find? "recursion").map Sample.program = some (.ok q) ∧
    (∃ id, p.functionId? "fib" = some id ∧ ∃ fuel, ∀ fuel' ≥ fuel,
      ((Engine.new p .unlimited).call fuel' (.function id) [word 93]).1 = some (.ok .unit)) ∧
    ∃ id', q.functionId? "fib" = some id' ∧ ∃ w : Word,
      (∃ fuel, ∀ fuel' ≥ fuel, (Engine.new q .unlimited).call fuel' (.function id') [word 93] =
        (some (.ok (.int w)), Engine.new q .unlimited)) ∧
      w.toInt = -6246583658587674878 ∧ (numbers 93).getLast? = some w.toInt := by
  obtain ⟨p, hp, -, -⟩ := exists_loop_sample
  obtain ⟨q, hq, -, -⟩ := exists_recursive_sample
  obtain ⟨⟨id, hid, fuel, hloop⟩, id', hid', w, hrec, -, hw, hlast⟩ :=
    @fibonacci_samples_agree (.new p .unlimited) (.new q .unlimited) 93 hp hq
      ⟨⟨0, rfl⟩, rfl, rfl⟩ (by decide)
  have hnumber : number 93 = -6246583658587674878 := by decide +kernel
  have hw : w.toInt = number 93 := by simpa using hw
  exact ⟨p, q, hp, hq, ⟨id, hid, fuel, fun fuel' hle => (hloop fuel' hle).1⟩, id', hid', w, hrec,
    hw.trans hnumber, hlast (by decide)⟩

end SsaMachine
