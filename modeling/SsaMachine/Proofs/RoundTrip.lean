import SsaMachine.Proofs.Literals
import SsaMachine.Value.Text

set_option autoImplicit false

/-! # Texts of values are read back

A value has a text, and a text is read as a constant of a declared type. For truth values, words and
strings the second undoes the first, at every type that admits the value
(`Constant.reading_inverts_text`).

For words this is a statement about decimal numerals. Which texts are numerals, and which integer a
numeral stands for, is said once without any reader, as a grammar (`Decimal.Digits`,
`Decimal.Integer`): a numeral grows at its end, where each digit multiplies what was there by ten.
The reader accepts exactly the texts of the grammar (`Decimal.readInt?_eq_some_iff`), and the
text of an integer is one of them (`Decimal.integer_toString`). So the two digit recursions, that of
printing and that of reading, are each related to the grammar and never to each other.

An integer has many numerals, with or without a plus sign, with any number of leading zeros, and
its value at a type is cut to the width of the type. What is read back is therefore the value and
not the text.
-/

namespace SsaMachine

/-! ## The grammar of integers -/

namespace Decimal

/-- One or more digits, and the number that they stand for in base ten. -/
inductive Digits : List Char → Nat → Prop
  | one {d : Nat} (hd : d < 10) : Digits [d.digitChar] d
  | snoc {cs : List Char} {n d : Nat} (h : Digits cs n) (hd : d < 10) :
      Digits (cs ++ [d.digitChar]) (10 * n + d)

/-- Digits with an optional sign before them, and the integer that they stand for. -/
inductive Integer : List Char → Int → Prop
  | unsigned {cs : List Char} {n : Nat} (h : Digits cs n) : Integer cs n
  | plus {cs : List Char} {n : Nat} (h : Digits cs n) : Integer ('+' :: cs) n
  | minus {cs : List Char} {n : Nat} (h : Digits cs n) : Integer ('-' :: cs) (-n)

/-! ## The reader accepts the grammar -/

theorem digitValue_digitChar {d : Nat} (hd : d < 10) : digitValue d.digitChar = d := by
  have hcode := Nat.toNat_digitChar_of_lt_ten hd
  show d.digitChar.toNat - 48 = d
  omega

theorem exists_digitChar_of_isDigit {c : Char} (hc : c.isDigit = true) :
    ∃ d < 10, c = d.digitChar := by
  obtain ⟨hlo, hhi⟩ : 48 ≤ c.toNat ∧ c.toNat ≤ 57 := Char.isDigit_iff_toNat.mp hc
  have hlt : c.toNat - 48 < 10 := by omega
  refine ⟨c.toNat - 48, hlt, Char.toNat_inj.mp ?_⟩
  rw [Nat.toNat_digitChar_of_lt_ten hlt]
  omega

theorem isDigit_digitChar {d : Nat} (hd : d < 10) : d.digitChar.isDigit = true := by
  simp [Nat.isDigit_digitChar, hd]

theorem valueOfDigits_snoc (cs : List Char) (c : Char) :
    valueOfDigits (cs ++ [c]) = 10 * valueOfDigits cs + digitValue c := by
  simp [valueOfDigits]

theorem readNat?_eq_some_iff {cs : List Char} {n : Nat} :
    readNat? cs = some n ↔ cs ≠ [] ∧ (∀ c ∈ cs, c.isDigit = true) ∧ valueOfDigits cs = n := by
  simp [readNat?, and_assoc]

theorem Digits.value_eq {cs : List Char} {n : Nat} (h : Digits cs n) :
    (∀ c ∈ cs, c.isDigit = true) ∧ valueOfDigits cs = n := by
  induction h with
  | @one d hd =>
      refine ⟨fun c hc => ?_, ?_⟩
      · rw [List.mem_singleton.mp hc]
        exact isDigit_digitChar hd
      · show 10 * 0 + digitValue d.digitChar = d
        rw [digitValue_digitChar hd]
        omega
  | @snoc cs n d _ hd ih =>
      refine ⟨fun c hc => ?_, ?_⟩
      · rcases List.mem_append.mp hc with hmem | hlast
        · exact ih.1 c hmem
        · rw [List.mem_singleton.mp hlast]
          exact isDigit_digitChar hd
      · rw [valueOfDigits_snoc, ih.2, digitValue_digitChar hd]

/-- Digits are read from the first to the last, and the grammar takes the last one off. -/
theorem digits_of_isDigit {cs : List Char} (hne : cs ≠ []) (h : ∀ c ∈ cs, c.isDigit = true) :
    Digits cs (valueOfDigits cs) := by
  induction cs using List.reverseRecOn with
  | nil => exact absurd rfl hne
  | append_singleton cs c ih =>
      obtain ⟨d, hd, rfl⟩ := exists_digitChar_of_isDigit (h c (by simp))
      rw [valueOfDigits_snoc, digitValue_digitChar hd]
      by_cases hcs : cs = []
      · subst hcs
        have hzero : 10 * valueOfDigits [] + d = d := by simp [valueOfDigits]
        rw [hzero]
        exact .one hd
      · exact .snoc (ih hcs fun c hc => h c (List.mem_append_left _ hc)) hd

/-- **One or more digits are what is read as a natural number.** -/
theorem readNat?_eq_some_iff_digits {cs : List Char} {n : Nat} :
    readNat? cs = some n ↔ Digits cs n := by
  rw [readNat?_eq_some_iff]
  constructor
  · rintro ⟨hne, hdigits, rfl⟩
    exact digits_of_isDigit hne hdigits
  · intro h
    have hne : cs ≠ [] := by
      rintro rfl
      generalize hnil : ([] : List Char) = cs at h
      cases h <;> simp at hnil
    exact ⟨hne, h.value_eq⟩

/-- A sign is no digit, so a numeral without a sign is not taken apart. -/
theorem Digits.readSign_eq {cs : List Char} {n : Nat} (h : Digits cs n) :
    readSign cs = (false, cs) := by
  have hdigits := h.value_eq.1
  unfold readSign
  split
  · exact absurd (hdigits '-' List.mem_cons_self) (by decide)
  · exact absurd (hdigits '+' List.mem_cons_self) (by decide)
  · rfl

/-- The sign is read first, and then the digits. -/
theorem readInt?_eq_map (cs : List Char) :
    readInt? cs =
      (readNat? (readSign cs).2).map fun n : Nat => if (readSign cs).1 then -(n : Int) else n := by
  unfold readInt?
  obtain ⟨negative, ds⟩ := readSign cs
  dsimp only
  cases readNat? ds <;> rfl

/-- **Reading an integer accepts exactly the texts of the grammar.** -/
theorem readInt?_eq_some_iff {cs : List Char} {n : Int} :
    readInt? cs = some n ↔ Integer cs n := by
  rw [readInt?_eq_map]
  constructor
  · intro h
    obtain ⟨m, hm, rfl⟩ := Option.map_eq_some_iff.mp h
    rw [readNat?_eq_some_iff_digits] at hm
    unfold readSign at hm ⊢
    split at hm
    · exact .minus hm
    · exact .plus hm
    · exact .unsigned hm
  · intro h
    cases h with
    | unsigned h => simp [h.readSign_eq, readNat?_eq_some_iff_digits.mpr h]
    | plus h => simp [readSign, readNat?_eq_some_iff_digits.mpr h]
    | minus h => simp [readSign, readNat?_eq_some_iff_digits.mpr h]

/-! ## The text of an integer -/

theorem digits_toDigits (n : Nat) : Digits (Nat.toDigits 10 n) n := by
  have hdigits : ∀ c ∈ Nat.toDigits 10 n, c.isDigit = true := fun c hc =>
    Nat.isDigit_of_mem_toDigits (by decide) (by decide) hc
  have hvalue : valueOfDigits (Nat.toDigits 10 n) = n := Nat.ofDigitChars_ten_toDigits
  have h := digits_of_isDigit Nat.toDigits_ne_nil hdigits
  rwa [hvalue] at h

/-- **The text of an integer stands for the integer.** -/
theorem integer_toString (n : Int) : Integer (toString n).toList n := by
  rw [Int.toString_eq_repr, Int.repr_eq_if]
  by_cases hn : 0 ≤ n
  · rw [if_pos hn, Nat.toList_repr]
    have h := Integer.unsigned (digits_toDigits n.toNat)
    rwa [Int.toNat_of_nonneg hn] at h
  · rw [if_neg hn, String.toList_append, Nat.toList_repr]
    have h := Integer.minus (digits_toDigits (-n).toNat)
    rwa [Int.toNat_of_nonneg (by omega), Int.neg_neg] at h

end Decimal

/-! ## Literals and words -/

/-- The integers that a literal can hold: those of 128 bits in two's complement. -/
def Literal.Holds (n : Int) : Prop :=
  -2 ^ 127 ≤ n ∧ n ≤ 2 ^ 127 - 1

/-- The text is a numeral, and it stands for an integer that a literal can hold. -/
def Literal.Denotes (s : String) (n : Int) : Prop :=
  Decimal.Integer s.toList n ∧ Holds n

theorem Constant.readInt?_eq_some_iff {s : String} {n : Int} :
    readInt? s = some n ↔ Literal.Denotes s n := by
  rw [readInt?, Option.filter_eq_some_iff, Decimal.readInt?_eq_some_iff, Bool.and_eq_true,
    decide_eq_true_iff, decide_eq_true_iff]
  rfl

/-- A literal can hold the integers of every type. -/
theorem Word.holds_toInt (w : Word) : Literal.Holds w.toInt := by
  obtain ⟨hlo, hhi⟩ := w.inRange_toInt
  have hleast : -2 ^ 127 ≤ w.ty.least := by cases w.ty <;> decide
  have hgreatest : w.ty.greatest ≤ 2 ^ 127 - 1 := by cases w.ty <;> decide
  exact ⟨by omega, by omega⟩

theorem Word.denotes_text (w : Word) : Literal.Denotes w.text w.toInt :=
  ⟨Decimal.integer_toString w.toInt, w.holds_toInt⟩

/-! ## Reading at a type -/

/-- The text of the value is read as a constant of the type, and the constant has the value. -/
def Constant.RoundTrips (T : Ty) (v : Value) : Prop :=
  ∃ k, read T v.text = .ok k ∧ k.materialize = .ok v

/-- The default of the type is that of truth values, an integer type, or that of strings. -/
def Ty.IsExact (T : Ty) : Prop :=
  T.defaulted = .bool ∨ (∃ t, T.defaulted = .int t) ∨ T.defaulted = .string

section Integers

variable {T : Ty} {t : IntType} (hT : T.defaulted = .int t)
include hT

theorem Constant.read_of_denotes {s : String} {n : Int} (h : Literal.Denotes s n) :
    read T s = .ok ⟨T, .int n⟩ := by
  simp [read, readLiteral?, hT, readInt?_eq_some_iff.mpr h]

theorem Constant.read_eq_error {s : String} (h : ∀ n, ¬ Literal.Denotes s n) :
    read T s = .error (.unreadableConstant s T) := by
  have hnone : readInt? s = none := by
    rw [Option.eq_none_iff_forall_ne_some]
    exact fun n hn => h n (readInt?_eq_some_iff.mp hn)
  simp [read, readLiteral?, hT, hnone]

theorem Constant.materialize_int (n : Int) :
    materialize ⟨T, .int n⟩ = .ok (.int (.ofInt t n)) := by
  simp [materialize, hT]

theorem Constant.exists_read_iff (s : String) :
    (∃ k, read T s = .ok k) ↔ ∃ n, Literal.Denotes s n := by
  constructor
  · rintro ⟨k, hk⟩
    by_contra hcon
    rw [read_eq_error hT fun n hn => hcon ⟨n, hn⟩] at hk
    cases hk
  · rintro ⟨n, hn⟩
    exact ⟨_, read_of_denotes hT hn⟩

theorem Constant.roundTrips_int {w : Word} (hw : w.ty = t) : RoundTrips T (.int w) := by
  refine ⟨_, read_of_denotes hT w.denotes_text, ?_⟩
  obtain ⟨u, bits⟩ := w
  obtain rfl : u = t := hw
  rw [materialize_int hT, Word.ofInt, Word.toInt, Word.ofInt_valueOf]

end Integers

theorem Constant.roundTrips_bool {T : Ty} (hT : T.defaulted = .bool) (b : Bool) :
    RoundTrips T (.bool b) := by
  refine ⟨⟨T, .bool b⟩, ?_, by simp [materialize, hT]⟩
  cases b <;> simp [read, readLiteral?, hT, Value.text, readBool?]

theorem Constant.roundTrips_string {T : Ty} (hT : T.defaulted = .string) (s : String) :
    RoundTrips T (.string s) :=
  ⟨⟨T, .string s⟩, by simp [read, readLiteral?, hT, Value.text], by simp [materialize, hT]⟩

/-- The text of a value is read back at every type that admits the value, unless the default of
the type is a floating-point or a pointer type. -/
theorem Constant.roundTrips_of_admits {T : Ty} {v : Value} (hT : T.IsExact)
    (hv : T.admits v = true) : RoundTrips T v := by
  rw [Ty.admits_iff, Ty.kind?] at hv
  rcases hT with hT | ⟨t, hT⟩ | hT
  · simp only [hT, Option.some.injEq] at hv
    cases v with
    | bool b => exact roundTrips_bool hT b
    | _ => cases hv
  · simp only [hT, Option.some.injEq] at hv
    cases v with
    | int w => exact roundTrips_int hT (Kind.int.inj hv).symm
    | _ => cases hv
  · simp only [hT, Option.some.injEq] at hv
    cases v with
    | string s => exact roundTrips_string hT s
    | _ => cases hv

/-- **Reading inverts the text of a value.** Take a type whose default is that of truth values, an
integer type or that of strings, and a value that it admits: the text of the value is read as a
constant of the type, and the constant has that value. At an integer type, a text is read exactly if
it is an optional sign and one or more digits, standing for an integer from minus two to the power
of 127 up to two to the power of 127 minus one, and every other text is reported with the type.
The value of what was read is the word of the type that is congruent to the integer, and its text is
read back. -/
theorem Constant.reading_inverts_text :
    (∀ (T : Ty) (v : Value), T.IsExact → T.admits v = true → RoundTrips T v) ∧
      ∀ (T : Ty) (t : IntType), T.defaulted = .int t → ∀ s : String,
        ((∃ k, read T s = .ok k) ↔ ∃ n, Literal.Denotes s n) ∧
        ((∀ n, ¬ Literal.Denotes s n) → read T s = .error (.unreadableConstant s T)) ∧
        ∀ n, Literal.Denotes s n → ∃ k w, read T s = .ok k ∧ k.materialize = .ok (.int w) ∧
          w.Wraps t n ∧ RoundTrips T (.int w) := by
  refine ⟨fun T v => roundTrips_of_admits, fun T t hT s => ⟨exists_read_iff hT s, ?_, ?_⟩⟩
  · exact read_eq_error hT
  · intro n hn
    exact ⟨_, _, read_of_denotes hT hn, materialize_int hT n, Word.wraps_ofInt t n,
      roundTrips_int hT rfl⟩

/-- The least rune is read back; a numeral with a sign and leading zeros is too large for a byte,
and wraps around to 44; and of the two integers next to each other at the upper limit of literals
only the first is read. -/
theorem Constant.reading_inverts_text_limits :
    RoundTrips (.untyped .rune) (.int (.ofInt .int32 (-2147483648))) ∧
      (∃ k w, read (.int .uint8) "+00300" = .ok k ∧ k.materialize = .ok (.int w) ∧
        w.Wraps .uint8 300 ∧ RoundTrips (.int .uint8) (.int w)) ∧
      (∃ k, read (.int .int64) "170141183460469231731687303715884105727" = .ok k) ∧
      ¬ ∃ k, read (.int .int64) "170141183460469231731687303715884105728" = .ok k := by
  obtain ⟨htrip, hread⟩ := reading_inverts_text
  refine ⟨htrip _ _ (.inr (.inl ⟨.int32, rfl⟩)) rfl, ?_, ?_, ?_⟩
  · exact (hread (.int .uint8) .uint8 rfl "+00300").2.2 300
      (readInt?_eq_some_iff.mp (by decide))
  · rw [(hread (.int .int64) .int64 rfl _).1]
    exact ⟨2 ^ 127 - 1, readInt?_eq_some_iff.mp (by decide)⟩
  · rw [(hread (.int .int64) .int64 rfl _).1]
    rintro ⟨n, hn⟩
    have hnone : readInt? "170141183460469231731687303715884105728" = none := by decide
    rw [← readInt?_eq_some_iff, hnone] at hn
    cases hn

end SsaMachine
