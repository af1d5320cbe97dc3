import SsaMachine.Proofs.Resources

set_option autoImplicit false

/-! # What printing does to the output

`print` and `println` may meet a sink that is full, that is filled up in the middle of a text, or
that cannot be flushed, and a program may go on printing after that. This file follows a sequence of
such calls and says what the sink has accepted in the end and how each call was answered
(`Resources.accepted_is_start_of_output`).

* **Writing.** A text is offered to the sink as a whole. The sink may accept any part of what it is
  offered, as long as it has room, and then the rest is offered again (`Sink.WritesAll`). How the
  sink cuts the text makes no difference: the outcome is the one that `Sink.write` gives
  (`Sink.writesAll_iff`).
* **Calls.** A sink with room for `n` bytes accepts the first `n` bytes of what it is given, and has
  less room afterwards by as much. This is the invariant of a sequence of calls
  (`Resources.printAll_sink`). It does not depend on the answers, so it holds beyond failures.

What the sink reports when it refuses bytes, and whether it can be flushed, may be different for
every call.
-/

namespace SsaMachine

/-! ## Writing piece by piece -/

/-- The sink has room for `k` more bytes. -/
def Sink.HasRoom (s : Sink) (k : Nat) : Prop :=
  ∀ n, s.room = some n → k ≤ n

/-- The sink after it has accepted some bytes. -/
def Sink.accept (s : Sink) (bytes : ByteArray) : Sink :=
  { s with accepted := s.accepted ++ bytes, room := s.room.map (· - bytes.size) }

/-- The bytes are offered to the sink until it has accepted them all or refuses. Of what it is
offered it accepts a part that is not empty, as long as it has room, and nothing is offered when
nothing is left. A refusal is reported. -/
inductive Sink.WritesAll : Sink → ByteArray → Option String → Sink → Prop
  | done (s : Sink) : WritesAll s .empty none s
  | refused {s : Sink} {bytes : ByteArray} (hne : bytes ≠ .empty) (hfull : s.room = some 0) :
      WritesAll s bytes (some s.refusal) s
  | part {s s' : Sink} {bytes rest : ByteArray} {failure : Option String} (hne : bytes ≠ .empty)
      (hroom : s.HasRoom bytes.size) (h : WritesAll (s.accept bytes) rest failure s') :
      WritesAll s (bytes ++ rest) failure s'

/-- The part of the bytes that the sink has room for. -/
def Sink.fitting (s : Sink) (bytes : ByteArray) : ByteArray :=
  match s.room with
  | none => bytes
  | some n => bytes.extract 0 n

/-- What is reported when the bytes are written. -/
def Sink.report (s : Sink) (bytes : ByteArray) : Option String :=
  match s.room with
  | none => none
  | some n => if bytes.size ≤ n then none else some s.refusal

theorem extract_of_size_le {bytes : ByteArray} {n : Nat} (h : bytes.size ≤ n) :
    bytes.extract 0 n = bytes := by
  rw [← Nat.max_eq_left h, ByteArray.extract_zero_max_size]

/-- As much room is left when only what fits is accepted. -/
theorem sub_size_extract (bytes : ByteArray) (n : Nat) :
    n - (bytes.extract 0 n).size = n - bytes.size := by
  rw [ByteArray.size_extract]
  omega

theorem Sink.write_eq (s : Sink) (text : String) :
    s.write text = (s.report text.toUTF8, s.accept (s.fitting text.toUTF8)) := by
  cases hroom : s.room with
  | none => simp only [write, hroom, report, fitting, accept, Option.map_none]
  | some n =>
      simp only [write, hroom, report, fitting, accept, Option.map_some, sub_size_extract]
      split <;> rfl

@[simp]
theorem Sink.fitting_empty (s : Sink) : s.fitting .empty = .empty := by
  cases hroom : s.room <;> simp [fitting, hroom]

theorem Sink.report_eq_none_iff {s : Sink} {bytes : ByteArray} :
    s.report bytes = none ↔ s.HasRoom bytes.size := by
  cases hroom : s.room <;> simp [report, HasRoom, hroom]

theorem Sink.fitting_of_hasRoom {s : Sink} {bytes : ByteArray} (h : s.HasRoom bytes.size) :
    s.fitting bytes = bytes := by
  cases hroom : s.room with
  | none => simp only [fitting, hroom]
  | some n => simp only [fitting, hroom, extract_of_size_le (h n hroom)]

@[simp]
theorem Sink.accept_empty (s : Sink) : s.accept .empty = s := by
  simp [accept]

theorem Sink.accept_accept (s : Sink) (a b : ByteArray) :
    (s.accept a).accept b = s.accept (a ++ b) := by
  simp [accept, ByteArray.append_assoc, Function.comp_def, Nat.sub_sub]

/-- What the sink accepts of two pieces is what it accepts of them together. -/
theorem Sink.fitting_append {s : Sink} {a : ByteArray} (h : s.HasRoom a.size) (b : ByteArray) :
    s.fitting (a ++ b) = a ++ (s.accept a).fitting b := by
  cases hroom : s.room with
  | none => simp only [fitting, accept, hroom, Option.map_none]
  | some n =>
      have hle : a.size ≤ n := h n hroom
      simp only [fitting, accept, hroom, Option.map_some]
      rw [ByteArray.extract_append, extract_of_size_le hle, Nat.zero_sub]

theorem Sink.report_append {s : Sink} {a : ByteArray} (h : s.HasRoom a.size) (b : ByteArray) :
    s.report (a ++ b) = (s.accept a).report b := by
  cases hroom : s.room with
  | none => simp only [report, accept, hroom, Option.map_none]
  | some n =>
      have hle : a.size ≤ n := h n hroom
      have hiff : a.size + b.size ≤ n ↔ b.size ≤ n - a.size := by omega
      simp only [report, accept, hroom, Option.map_some, ByteArray.size_append, hiff]

/-- However the sink cuts what it is offered, it accepts what fits and reports the rest. -/
theorem Sink.WritesAll.eq {s s' : Sink} {bytes : ByteArray} {failure : Option String}
    (h : s.WritesAll bytes failure s') :
    failure = s.report bytes ∧ s' = s.accept (s.fitting bytes) := by
  induction h with
  | done s =>
      rw [report_eq_none_iff.mpr (by simp [HasRoom]), fitting_empty, accept_empty]
      exact ⟨rfl, rfl⟩
  | @refused s bytes hne hfull =>
      have hsize : bytes.size ≠ 0 := fun h => hne (ByteArray.size_eq_zero_iff.mp h)
      simp [report, fitting, hfull, hsize]
  | @part s s' bytes rest failure hne hroom h ih =>
      obtain ⟨hfailure, hs'⟩ := ih
      rw [report_append hroom, fitting_append hroom, ← accept_accept]
      exact ⟨hfailure, hs'⟩

/-- A part that the sink accepts may also be empty. -/
theorem Sink.WritesAll.append {s s' : Sink} {bytes rest : ByteArray} {failure : Option String}
    (hroom : s.HasRoom bytes.size) (h : (s.accept bytes).WritesAll rest failure s') :
    s.WritesAll (bytes ++ rest) failure s' := by
  by_cases hne : bytes = .empty
  · subst hne
    rw [accept_empty] at h
    rwa [ByteArray.empty_append]
  · exact .part hne hroom h

/-- The sink can take at once as much as it has room for. -/
theorem Sink.writesAll_fitting (s : Sink) (bytes : ByteArray) :
    s.WritesAll bytes (s.report bytes) (s.accept (s.fitting bytes)) := by
  by_cases h : s.HasRoom bytes.size
  · have hall := WritesAll.append h (.done (s.accept bytes))
    rw [ByteArray.append_empty] at hall
    rwa [report_eq_none_iff.mpr h, fitting_of_hasRoom h]
  · obtain ⟨n, hroom, hlt⟩ : ∃ n, s.room = some n ∧ n < bytes.size := by
      simpa [HasRoom] using h
    -- the sink takes what fits and has no room for the rest, which is not empty
    have hsplit : bytes = bytes.extract 0 n ++ bytes.extract n bytes.size := by
      rw [← ByteArray.extract_eq_extract_append_extract n (Nat.zero_le n) (Nat.le_of_lt hlt),
        ByteArray.extract_zero_size]
    have hfirst : (bytes.extract 0 n).size = n := by
      rw [ByteArray.size_extract]
      omega
    have hrest : bytes.extract n bytes.size ≠ .empty := by
      rw [Ne, ByteArray.extract_eq_empty_iff]
      omega
    have hfull : (s.accept (bytes.extract 0 n)).room = some 0 := by
      simp [accept, hroom, hfirst]
    have hfits : s.HasRoom (bytes.extract 0 n).size := by
      simp [HasRoom, hroom, hfirst]
    have hreport : s.report bytes = some s.refusal := by
      simp only [report, hroom, if_neg (Nat.not_le_of_lt hlt)]
    have hfitting : s.fitting bytes = bytes.extract 0 n := by
      simp only [fitting, hroom]
    have hall := WritesAll.append hfits (.refused hrest hfull)
    rw [← hsplit] at hall
    rw [hreport, hfitting]
    exact hall

/-- **Writing is the same, however the sink cuts the text.** -/
theorem Sink.writesAll_iff {s s' : Sink} {text : String} {failure : Option String} :
    s.WritesAll text.toUTF8 failure s' ↔ s.write text = (failure, s') := by
  rw [write_eq, Prod.mk.injEq]
  constructor
  · intro h
    exact ⟨h.eq.1.symm, h.eq.2.symm⟩
  · rintro ⟨rfl, rfl⟩
    exact s.writesAll_fitting text.toUTF8

/-! ## One call -/

/-- The natives that print. -/
inductive Printer
  | print
  | println

namespace Printer

def name : Printer → String
  | print => "print"
  | println => "println"

def native : Printer → Native
  | print => .print
  | println => .println

/-- The text that is printed for some arguments: their texts joined by nothing, or by single spaces
and followed by a newline. -/
def text : Printer → List Value → String
  | print, args => String.join (args.map Value.text)
  | println, args => " ".intercalate (args.map Value.text) ++ "\n"

end Printer

/-- A call of a native that prints, with what the sink reports during that call when it refuses
bytes and when it is flushed. -/
structure Printing where
  printer : Printer
  args : List Value
  refusal : String
  flushFailure : Option String

namespace Printing

/-- The text of the call. -/
def text (p : Printing) : String :=
  p.printer.text p.args

/-- The sink during the call. -/
def sink (p : Printing) (s : Sink) : Sink :=
  { s with refusal := p.refusal, flushFailure := p.flushFailure }

/-- The sink after the call. -/
def after (p : Printing) (s : Sink) : Sink :=
  (p.sink s).accept ((p.sink s).fitting p.text.toUTF8)

/-- What has failed in the call, if anything has. The sink is flushed unless it refuses bytes. -/
def failure (p : Printing) (s : Sink) : Option String :=
  ((p.sink s).report p.text.toUTF8).or p.flushFailure

/-- The answer to a call, given what has failed. -/
def answer : Option String → Except Fault Value
  | some failure => .error (.output failure)
  | none => .ok .unit

/-- What a call does to the sink and how it is answered. -/
structure Outcome (p : Printing) (before after : Sink) (answer : Except Fault Value) : Prop where
  /-- The text is written as the sink accepts it. -/
  written : ∃ failure, (p.sink before).WritesAll p.text.toUTF8 failure after
  /-- It does not matter which parts of the text the sink accepts at once. -/
  unique : ∀ {failure s'}, (p.sink before).WritesAll p.text.toUTF8 failure s' → s' = after
  /-- The call succeeds if the whole text has been accepted and the sink could be flushed. -/
  ok_iff : answer = .ok .unit ↔
    after.accepted = before.accepted ++ p.text.toUTF8 ∧ p.flushFailure = none
  /-- A refusal is answered as the sink has reported it. -/
  refused : after.accepted ≠ before.accepted ++ p.text.toUTF8 →
    answer = .error (.output p.refusal)
  /-- So is a failure to flush, when nothing has been refused. -/
  unflushed : ∀ {failure}, after.accepted = before.accepted ++ p.text.toUTF8 →
    p.flushFailure = some failure → answer = .error (.output failure)

end Printing

/-- Both natives that print are registered under their names. -/
def Registry.HasPrinters (r : Registry) : Prop :=
  ∀ p : Printer, ∃ calls, r.find? p.name = some ⟨p.name, p.native, calls⟩

theorem Registry.hasPrinters_standard : standard.HasPrinters := by
  intro p
  cases p <;> exact ⟨0, rfl⟩

theorem Registry.HasPrinters.put {r : Registry} (h : r.HasPrinters) (p : Printer) (calls : Nat) :
    (⟨Registry.put ⟨p.name, p.native, calls⟩ r.entries⟩ : Registry).HasPrinters := by
  intro q
  by_cases hname : p.name = q.name
  · have hpq : p = q := by cases p <;> cases q <;> first | rfl | simp [Printer.name] at hname
    subst hpq
    exact ⟨calls, find?_put ⟨p.name, p.native, calls⟩ r.entries⟩
  · obtain ⟨k, hk⟩ := h q
    exact ⟨k, (find?_put_of_ne hname r.entries).trans hk⟩

theorem intercalate_empty (l : List String) : "".intercalate l = String.join l := by
  induction l with
  | nil => rfl
  | cons s l ih =>
      cases l with
      | nil => simp [String.join_cons, String.join_nil]
      | cons t l => simp [String.intercalate_cons_cons, ih]

theorem Printer.native_eq (p : Printer) : p.native = .writing Sink.writeThrough p.text := by
  cases p with
  | print =>
      have htext : Value.joinTexts "" = Printer.print.text :=
        funext fun args => intercalate_empty (args.map Value.text)
      rw [native, Native.print, htext]
  | println => rfl

theorem Sink.writeThrough_eq (s : Sink) (text : String) :
    s.writeThrough text =
      ((s.report text.toUTF8).or s.flushFailure, s.accept (s.fitting text.toUTF8)) := by
  rw [writeThrough, write_eq]
  cases s.report text.toUTF8 <;> rfl

theorem Printing.respond_native (p : Printing) (call : Nat) (m : Memory) (s : Sink) :
    p.printer.native.respond call p.args m (p.sink s) =
      (answer (p.failure s), m, p.after s) := by
  have hwrite : (p.sink s).writeThrough (p.printer.text p.args) = (p.failure s, p.after s) :=
    Sink.writeThrough_eq (p.sink s) p.text
  rw [Printer.native_eq]
  simp only [Native.writing, hwrite]
  cases p.failure s <;> rfl

/-- The sink has accepted all of the bytes if and only if it has not reported anything. -/
theorem Sink.accepted_accept_fitting_iff {s : Sink} {bytes : ByteArray} :
    (s.accept (s.fitting bytes)).accepted = s.accepted ++ bytes ↔ s.report bytes = none := by
  rw [report_eq_none_iff]
  constructor
  · intro h n hroom
    have hsize : (s.fitting bytes).size = bytes.size := by
      have heq := congrArg ByteArray.size h
      simpa [accept] using heq
    simp only [fitting, hroom, ByteArray.size_extract] at hsize
    omega
  · intro h
    rw [fitting_of_hasRoom h]
    rfl

theorem Sink.report_eq_some {s : Sink} {bytes : ByteArray} {message : String}
    (h : s.report bytes = some message) : message = s.refusal := by
  cases hroom : s.room with
  | none => simp [report, hroom] at h
  | some n =>
      simp only [report, hroom, Option.ite_none_left_eq_some, Option.some.injEq] at h
      exact h.2.symm

theorem Printing.answer_eq_ok_iff {failure : Option String} :
    answer failure = .ok .unit ↔ failure = none := by
  cases failure <;> simp [answer]

theorem Printing.outcome (p : Printing) (s : Sink) :
    p.Outcome s (p.after s) (answer (p.failure s)) := by
  have hall : (p.after s).accepted = s.accepted ++ p.text.toUTF8 ↔
      (p.sink s).report p.text.toUTF8 = none :=
    Sink.accepted_accept_fitting_iff
  have hwrite : (p.sink s).write p.text = ((p.sink s).report p.text.toUTF8, p.after s) :=
    Sink.write_eq _ _
  constructor
  case written => exact ⟨_, Sink.writesAll_iff.mpr hwrite⟩
  case unique =>
    intro failure s' h
    have heq := hwrite.symm.trans (Sink.writesAll_iff.mp h)
    exact (congrArg Prod.snd heq).symm
  case ok_iff => rw [hall, answer_eq_ok_iff, failure, Option.or_eq_none_iff]
  case refused =>
    intro hne
    obtain ⟨message, hmessage⟩ := Option.ne_none_iff_exists'.mp (mt hall.mpr hne)
    obtain rfl := Sink.report_eq_some hmessage
    rw [failure, hmessage]
    rfl
  case unflushed =>
    intro message heq hflush
    rw [failure, hall.mp heq, hflush]
    rfl

/-- One call of a native that prints. -/
def Resources.print (r : Resources) (p : Printing) : Except Fault Value × Resources :=
  { r with sink := p.sink r.sink }.callNative p.printer.name p.args

/-- Calls one after another. A call that fails does not keep the next from being made. -/
def Resources.printAll (r : Resources) : List Printing → List (Except Fault Value) × Resources
  | [] => ([], r)
  | p :: ps =>
    let (answer, r) := r.print p
    let (answers, r) := r.printAll ps
    (answer :: answers, r)

theorem Resources.print_eq {r : Resources} (h : r.registry.HasPrinters) (p : Printing) :
    ∃ registry : Registry, registry.HasPrinters ∧
      r.print p = (Printing.answer (p.failure r.sink), ⟨r.memory, registry, p.after r.sink⟩) := by
  obtain ⟨calls, hfind⟩ := h p.printer
  refine ⟨⟨Registry.put ⟨p.printer.name, p.printer.native, calls + 1⟩ r.registry.entries⟩,
    h.put p.printer (calls + 1), ?_⟩
  simp only [print, callNative, hfind, p.respond_native]

/-! ## Sequences of calls -/

/-- The texts of the calls, one after another. -/
def Printing.output (ps : List Printing) : String :=
  String.join (ps.map text)

theorem Printing.toUTF8_output_cons (p : Printing) (ps : List Printing) :
    (output (p :: ps)).toUTF8 = p.text.toUTF8 ++ (output ps).toUTF8 := by
  simp [output]

theorem Printing.after_of_room (p : Printing) {s : Sink} {n : Nat} (h : s.room = some n) :
    (p.after s).accepted = s.accepted ++ p.text.toUTF8.extract 0 n ∧
      (p.after s).room = some (n - p.text.toUTF8.size) := by
  have hroom : (p.sink s).room = some n := h
  simp only [after, Sink.accept, Sink.fitting, hroom, Option.map_some, sub_size_extract, and_true]
  rfl

/-- **What calls do to the sink.** Whatever the answers, the sink has accepted as much of the output
as it had room for, and lost room by as much. -/
theorem Resources.printAll_sink {r : Resources} (h : r.registry.HasPrinters) {n : Nat}
    (hroom : r.sink.room = some n) (ps : List Printing) :
    (r.printAll ps).2.registry.HasPrinters ∧
      (r.printAll ps).2.sink.accepted =
        r.sink.accepted ++ (Printing.output ps).toUTF8.extract 0 n ∧
      (r.printAll ps).2.sink.room = some (n - (Printing.output ps).toUTF8.size) := by
  induction ps generalizing r n with
  | nil =>
      have hnone : (Printing.output []).toUTF8 = .empty := rfl
      rw [printAll, hnone, extract_of_size_le (Nat.zero_le n), ByteArray.append_empty]
      exact ⟨h, rfl, hroom⟩
  | cons p ps ih =>
      obtain ⟨registry, hprinters, hprint⟩ := print_eq h p
      obtain ⟨haccepted, hroom'⟩ := p.after_of_room hroom
      obtain ⟨ihprinters, ihaccepted, ihroom⟩ :=
        @ih ⟨r.memory, registry, p.after r.sink⟩ hprinters _ hroom'
      simp only [printAll, hprint, Printing.toUTF8_output_cons]
      refine ⟨ihprinters, ?_, ?_⟩
      · rw [ihaccepted, haccepted, ByteArray.append_assoc, ByteArray.extract_append, Nat.zero_sub]
      · rw [ihroom, ByteArray.size_append, Nat.sub_sub]

/-- The answer to each call, and the state after it, are those of the call made where the calls
before it have led. -/
theorem Resources.printAll_getElem? {r : Resources} {ps : List Printing} {i : Nat} {p : Printing}
    (h : ps[i]? = some p) :
    (r.printAll ps).1[i]? = some ((r.printAll (ps.take i)).2.print p).1 ∧
      (r.printAll (ps.take (i + 1))).2 = ((r.printAll (ps.take i)).2.print p).2 := by
  induction ps generalizing r i with
  | nil => simp at h
  | cons q ps ih =>
      cases i with
      | zero =>
          obtain rfl : q = p := by simpa using h
          exact ⟨rfl, rfl⟩
      | succ i =>
          rw [List.getElem?_cons_succ] at h
          obtain ⟨hanswer, hstate⟩ := @ih (r.print q).2 i h
          exact ⟨hanswer, hstate⟩

theorem Resources.length_printAll (r : Resources) (ps : List Printing) :
    (r.printAll ps).1.length = ps.length := by
  induction ps generalizing r with
  | nil => rfl
  | cons p ps ih => exact congrArg (· + 1) (ih (r.print p).2)

/-- **Nothing that is printed is lost, repeated or moved.** When the sink has room for `n` more
bytes, it has accepted the first `n` bytes of the output at the end of any calls, wherever that cuts
the texts and however the calls are answered. Every call is answered, and it succeeds if and only
if its whole text has been accepted and the sink could be flushed. -/
theorem Resources.accepted_is_start_of_output {r : Resources} (h : r.registry.HasPrinters)
    {n : Nat} (hroom : r.sink.room = some n) (ps : List Printing) :
    (r.printAll ps).2.sink.accepted =
        r.sink.accepted ++ (Printing.output ps).toUTF8.extract 0 n ∧
      (r.printAll ps).1.length = ps.length ∧
      ∀ (i : Nat) (p : Printing), ps[i]? = some p → ∃ answer,
        (r.printAll ps).1[i]? = some answer ∧
          p.Outcome (r.printAll (ps.take i)).2.sink (r.printAll (ps.take (i + 1))).2.sink
            answer := by
  refine ⟨(printAll_sink h hroom ps).2.1, length_printAll r ps, ?_⟩
  intro i p hp
  obtain ⟨hanswer, hstate⟩ := printAll_getElem? (r := r) hp
  obtain ⟨hprinters, -, -⟩ := printAll_sink h hroom (ps.take i)
  obtain ⟨registry, -, hprint⟩ := print_eq hprinters p
  rw [hprint] at hanswer hstate
  refine ⟨_, hanswer, ?_⟩
  rw [hstate]
  exact p.outcome _

namespace NarrowOutput

/-- Nothing printed yet, and room for four bytes. -/
def resources : Resources :=
  ⟨.empty, .standard, .limited 4 "" none⟩

/-- A flush fails, then a text is cut within a character, then there is nothing to print, and last
there is no room for a line without arguments. -/
def calls : List Printing :=
  [⟨.print, [.string "a", .string "é"], "full", some "unflushed"⟩,
   ⟨.println, [.string "é", .unit], "full", none⟩,
   ⟨.print, [.string ""], "full", none⟩,
   ⟨.println, [], "closed", none⟩]

end NarrowOutput

/-- The first byte of the second `é` is the last that is accepted, and the empty text after it is
printed all the same. -/
theorem Resources.accepted_is_start_of_output_narrow :
    (NarrowOutput.resources.printAll NarrowOutput.calls).2.sink.accepted =
        ⟨#[97, 195, 169, 195]⟩ ∧
      (NarrowOutput.resources.printAll NarrowOutput.calls).1 =
        [.error (.output "unflushed"), .error (.output "full"), .ok .unit,
          .error (.output "closed")] := by
  obtain ⟨haccepted, hlength, houtcome⟩ :=
    accepted_is_start_of_output (r := NarrowOutput.resources) Registry.hasPrinters_standard rfl
      NarrowOutput.calls
  obtain ⟨_, h₀, hout₀⟩ := houtcome 0 _ rfl
  obtain ⟨_, h₁, hout₁⟩ := houtcome 1 _ rfl
  obtain ⟨_, h₂, hout₂⟩ := houtcome 2 _ rfl
  obtain ⟨_, h₃, hout₃⟩ := houtcome 3 _ rfl
  rw [hout₀.unflushed (by decide) rfl] at h₀
  rw [hout₁.refused (by decide)] at h₁
  rw [hout₂.ok_iff.mpr ⟨by decide, rfl⟩] at h₂
  rw [hout₃.refused (by decide)] at h₃
  refine ⟨haccepted.trans (by decide), List.ext_getElem? fun i => ?_⟩
  match i with
  | 0 => exact h₀
  | 1 => exact h₁
  | 2 => exact h₂
  | 3 => exact h₃
  | i + 4 => exact List.getElem?_eq_none (by rw [hlength]; exact Nat.le_add_left 4 i)

end SsaMachine
