import SsaMachine.Proofs.Instruction
import Mathlib.Data.Int.Bitwise
import Mathlib.Data.Int.ModEq

set_option autoImplicit false

/-! # Operators on words are exact up to a multiple of two to the width

The operators compute on bits. Seen through the integers that words stand for they are the
operators of exact arithmetic, with the result brought back into the range of the type by a
multiple of two to its width (`Word.operators_are_exact_modulo_width`).

* **Words and integers.** Cutting an integer to the width of a type is reduction modulo a power of
  two (`ofInt_eq_ofInt_iff`). The integers of a type are one system of representatives
  (`IntType.eq_of_modEq`), so the word that is cut from an integer stands for the one integer of
  the type that is congruent to it (`Word.wraps_ofInt`).
* **Operators that commute with cutting.** Sums, differences, products and the operators on bits can
  be computed before or after it, for integers of any size (`BinaryOp.onWords_ofInt`). For the
  operators on bits the integers have infinitely many bits, those of a negative integer ending in
  ones.
* **Division** does not commute with cutting, but is exact for the integers of a type; the one
  quotient that is not an integer of the type is cut (`IntType.quotient_eq`,
  `IntType.remainder_eq`).
-/

namespace SsaMachine

/-! ## Exact results -/

/-- The exact result of an operator on integers: quotients are rounded toward zero, remainders have
the sign of the dividend, and the operators on bits read the integers in two's complement. Division
by zero and the comparisons have none. -/
def BinaryOp.onInts? (x y : Int) : BinaryOp → Option Int
  | add => some (x + y)
  | sub => some (x - y)
  | mul => some (x * y)
  | quo => if y = 0 then none else some (x.tdiv y)
  | rem => if y = 0 then none else some (x.tmod y)
  | and => some (x.land y)
  | or => some (x.lor y)
  | xor => some (x.xor y)
  | andNot => some (x.ldiff y)
  | compare _ => none

/-- The exact result of an operator with one operand on integers, where it applies to them. -/
def UnaryOp.onInt? (x : Int) : UnaryOp → Option Int
  | neg => some (-x)
  | complement => some (-x - 1)
  | _ => none

/-- The comparison as a relation between integers. -/
def Comparison.Holds (x y : Int) : Comparison → Prop
  | eq => x = y
  | ne => x ≠ y
  | lt => x < y
  | le => x ≤ y
  | gt => x > y
  | ge => x ≥ y

instance Comparison.decidableHolds (x y : Int) : (c : Comparison) → Decidable (c.Holds x y)
  | eq => inferInstanceAs (Decidable (x = y))
  | ne => inferInstanceAs (Decidable (x ≠ y))
  | lt => inferInstanceAs (Decidable (x < y))
  | le => inferInstanceAs (Decidable (x ≤ y))
  | gt => inferInstanceAs (Decidable (x > y))
  | ge => inferInstanceAs (Decidable (x ≥ y))

/-- The word is of type `t`, and stands for the only integer of the type that is congruent to `n`
modulo two to the width. -/
structure Word.Wraps (w : Word) (t : IntType) (n : Int) : Prop where
  ty_eq : w.ty = t
  unique : ∀ m, (t.InRange m ∧ m ≡ n [ZMOD 2 ^ t.bits]) ↔ m = w.toInt

/-! ## Words and integers -/

/-- Two integers are cut to the same bits if they are congruent. -/
theorem ofInt_eq_ofInt_iff {w : Nat} {x y : Int} :
    BitVec.ofInt w x = BitVec.ofInt w y ↔ x ≡ y [ZMOD 2 ^ w] := by
  have hpow : ((2 ^ w : Nat) : Int) = 2 ^ w := by push_cast; rfl
  rw [← BitVec.toInt_inj, BitVec.toInt_ofInt, BitVec.toInt_ofInt, Int.ModEq, ← hpow]
  constructor
  · intro h
    rw [← Int.bmod_emod, h, Int.bmod_emod]
  · intro h
    rw [← Int.emod_bmod, h, Int.emod_bmod]

/-- A type has as many integers as there are bit patterns of its width. -/
theorem IntType.greatest_sub_least (t : IntType) : t.greatest - t.least + 1 = 2 ^ t.bits := by
  cases t <;> decide

/-- Congruent integers of one type are equal. -/
theorem IntType.eq_of_modEq {t : IntType} {m n : Int} (hm : t.InRange m) (hn : t.InRange n)
    (h : m ≡ n [ZMOD 2 ^ t.bits]) : m = n := by
  have hwidth := t.greatest_sub_least
  obtain ⟨hml, hmg⟩ := hm
  obtain ⟨hnl, hng⟩ := hn
  have hdvd : (2 : Int) ^ t.bits ∣ n - m := h.dvd
  have hsmall : |n - m| < 2 ^ t.bits := by
    rw [abs_lt]
    constructor <;> omega
  have hzero := Int.eq_zero_of_abs_lt_dvd hdvd hsmall
  omega

/-- The integer that bits stand for is cut to the same bits again. -/
theorem Word.ofInt_valueOf {t : IntType} (b : BitVec t.bits) :
    BitVec.ofInt t.bits (valueOf t b) = b := by
  unfold valueOf
  split
  · exact BitVec.ofInt_toInt
  · rw [BitVec.ofInt_natCast, BitVec.ofNat_toNat, BitVec.setWidth_eq]

/-- **The word cut from an integer stands for the one integer of the type congruent to it.** -/
theorem Word.wraps_ofInt (t : IntType) (n : Int) : (Word.ofInt t n).Wraps t n := by
  have hrange : t.InRange (Word.ofInt t n).toInt := (Word.ofInt t n).inRange_toInt
  have hcongr : (Word.ofInt t n).toInt ≡ n [ZMOD 2 ^ t.bits] :=
    ofInt_eq_ofInt_iff.mp (ofInt_valueOf _)
  refine ⟨rfl, fun m => ⟨?_, ?_⟩⟩
  · rintro ⟨hm, hmn⟩
    exact t.eq_of_modEq hm hrange (hmn.trans hcongr.symm)
  · rintro rfl
    exact ⟨hrange, hcongr⟩

/-! ## Operators that commute with cutting -/

/-- The bits that are kept are the bits of the integer. -/
theorem getElem_ofInt {w : Nat} (n : Int) {k : Nat} (hk : k < w) :
    (BitVec.ofInt w n)[k] = n.testBit k := by
  rw [← BitVec.getLsbD_eq_getElem]
  cases n with
  | ofNat m =>
      rw [Int.ofNat_eq_natCast, BitVec.ofInt_natCast, BitVec.getLsbD_ofNat]
      simp [hk, Int.testBit]
  | negSucc m =>
      rw [BitVec.ofInt_negSucc_eq_not_ofNat, BitVec.getLsbD_not, BitVec.getLsbD_ofNat]
      simp [hk, Int.testBit]

theorem ofInt_sub {w : Nat} (x y : Int) :
    BitVec.ofInt w (x - y) = BitVec.ofInt w x - BitVec.ofInt w y := by
  rw [Int.sub_eq_add_neg, BitVec.ofInt_add, BitVec.ofInt_neg, BitVec.sub_eq_add_neg]

theorem ofInt_land {w : Nat} (x y : Int) :
    BitVec.ofInt w (x.land y) = BitVec.ofInt w x &&& BitVec.ofInt w y := by
  ext k hk
  simp [getElem_ofInt]

theorem ofInt_lor {w : Nat} (x y : Int) :
    BitVec.ofInt w (x.lor y) = BitVec.ofInt w x ||| BitVec.ofInt w y := by
  ext k hk
  simp [getElem_ofInt]

theorem ofInt_xor {w : Nat} (x y : Int) :
    BitVec.ofInt w (x.xor y) = BitVec.ofInt w x ^^^ BitVec.ofInt w y := by
  ext k hk
  simp [getElem_ofInt]

theorem ofInt_ldiff {w : Nat} (x y : Int) :
    BitVec.ofInt w (x.ldiff y) = BitVec.ofInt w x &&& ~~~BitVec.ofInt w y := by
  ext k hk
  simp [getElem_ofInt]

theorem ofInt_complement {w : Nat} (x : Int) :
    BitVec.ofInt w (-x - 1) = ~~~BitVec.ofInt w x := by
  rw [ofInt_sub, BitVec.ofInt_neg, BitVec.not_eq_neg_add]
  rfl

/-- Whether the result of the operator, up to a multiple of two to the width, depends on the
operands only up to such multiples. -/
def BinaryOp.isModular : BinaryOp → Bool
  | quo | rem | compare _ => false
  | _ => true

/-- **Except for division, the result of cut integers is the cut result**, whatever the size of
the integers. -/
theorem BinaryOp.onWords_ofInt {op : BinaryOp} (t : IntType) {x y n : Int}
    (hop : op.isModular = true) (h : op.onInts? x y = some n) :
    op.onWords t (BitVec.ofInt t.bits x) (BitVec.ofInt t.bits y) = .ok (.int (.ofInt t n)) := by
  cases op with
  | add => cases h; rw [Word.ofInt, BitVec.ofInt_add]; rfl
  | sub => cases h; rw [Word.ofInt, ofInt_sub]; rfl
  | mul => cases h; rw [Word.ofInt, BitVec.ofInt_mul]; rfl
  | and => cases h; rw [Word.ofInt, ofInt_land]; rfl
  | or => cases h; rw [Word.ofInt, ofInt_lor]; rfl
  | xor => cases h; rw [Word.ofInt, ofInt_xor]; rfl
  | andNot => cases h; rw [Word.ofInt, ofInt_ldiff]; rfl
  | quo => cases hop
  | rem => cases hop
  | compare c => cases hop

/-- Negation and complement of a cut integer are cut from those of the integer. -/
theorem UnaryOp.eval_ofInt {op : UnaryOp} (t : IntType) (m : Memory) {x n : Int}
    (h : op.onInt? x = some n) : op.eval m (.int (.ofInt t x)) = .ok (.int (.ofInt t n)) := by
  cases op with
  | neg =>
      cases h
      rw [Word.ofInt, Word.ofInt, BitVec.ofInt_neg]
      rfl
  | complement =>
      cases h
      rw [Word.ofInt, Word.ofInt, ofInt_complement]
      rfl
  | _ => cases h

/-! ## Division -/

theorem IntType.quotient_eq (t : IntType) (a b : BitVec t.bits) :
    t.quotient a b = BitVec.ofInt t.bits ((Word.valueOf t a).tdiv (Word.valueOf t b)) := by
  unfold quotient Word.valueOf
  cases t.signed with
  | true =>
      show a.sdiv b = BitVec.ofInt t.bits (a.toInt.tdiv b.toInt)
      refine BitVec.eq_of_toInt_eq ?_
      rw [BitVec.toInt_sdiv, BitVec.toInt_ofInt]
  | false =>
      show a.udiv b = BitVec.ofInt t.bits ((a.toNat : Int).tdiv b.toNat)
      rw [← Int.ofNat_tdiv, BitVec.ofInt_natCast, ← BitVec.toNat_udiv, BitVec.ofNat_toNat,
        BitVec.setWidth_eq]
      rfl

theorem IntType.remainder_eq (t : IntType) (a b : BitVec t.bits) :
    t.remainder a b = BitVec.ofInt t.bits ((Word.valueOf t a).tmod (Word.valueOf t b)) := by
  unfold remainder Word.valueOf
  cases t.signed with
  | true =>
      show a.srem b = BitVec.ofInt t.bits (a.toInt.tmod b.toInt)
      rw [← BitVec.toInt_srem, BitVec.ofInt_toInt]
  | false =>
      show a.umod b = BitVec.ofInt t.bits ((a.toNat : Int).tmod b.toNat)
      rw [← Int.ofNat_tmod, BitVec.ofInt_natCast, ← BitVec.toNat_umod, BitVec.ofNat_toNat,
        BitVec.setWidth_eq]
      rfl

/-- Only the zero word stands for zero. -/
theorem Word.valueOf_eq_zero_iff {t : IntType} {b : BitVec t.bits} : valueOf t b = 0 ↔ b = 0 := by
  constructor
  · intro h
    rw [← ofInt_valueOf b, h]
    rfl
  · rintro rfl
    unfold valueOf
    split <;> simp

/-! ## The operators on words -/

section Operators

variable {t : IntType} (a b : BitVec t.bits)

theorem BinaryOp.eval_int (op : BinaryOp) :
    op.eval (.int ⟨t, a⟩) (.int ⟨t, b⟩) = op.onWords t a b := by
  simp [eval]

/-- An operator with an exact result gives the word that is cut from it. -/
theorem BinaryOp.onWords_of_exact {op : BinaryOp} {n : Int}
    (h : op.onInts? (Word.valueOf t a) (Word.valueOf t b) = some n) :
    op.onWords t a b = .ok (.int (.ofInt t n)) := by
  cases hop : op.isModular with
  | true =>
      have hcut := onWords_ofInt t hop h
      rwa [Word.ofInt_valueOf, Word.ofInt_valueOf] at hcut
  | false =>
      cases op with
      | quo =>
          simp only [onInts?, Option.ite_none_left_eq_some, Option.some.injEq,
            Word.valueOf_eq_zero_iff] at h
          obtain ⟨hb, rfl⟩ := h
          simp only [onWords, if_neg hb, Word.ofInt, IntType.quotient_eq]
      | rem =>
          simp only [onInts?, Option.ite_none_left_eq_some, Option.some.injEq,
            Word.valueOf_eq_zero_iff] at h
          obtain ⟨hb, rfl⟩ := h
          simp only [onWords, if_neg hb, Word.ofInt, IntType.remainder_eq]
      | compare c => cases h
      | _ => cases hop

theorem BinaryOp.onWords_eq_error_iff {op : BinaryOp} {fault : Fault} :
    op.onWords t a b = .error fault ↔
      (op = .quo ∨ op = .rem) ∧ Word.valueOf t b = 0 ∧ fault = .divisionByZero := by
  rw [Word.valueOf_eq_zero_iff]
  constructor
  · exact onWords_eq_error
  · rintro ⟨rfl | rfl, hb, rfl⟩ <;> exact if_pos hb

theorem Comparison.test_eq_decide (c : Comparison) (x y : Int) :
    c.test x y = decide (c.Holds x y) := by
  rw [Bool.eq_iff_iff, decide_eq_true_iff]
  cases c <;> simp [test, Holds]

theorem UnaryOp.eval_of_exact {op : UnaryOp} {n : Int} (m : Memory)
    (h : op.onInt? (Word.valueOf t a) = some n) :
    op.eval m (.int ⟨t, a⟩) = .ok (.int (.ofInt t n)) := by
  have hcut := eval_ofInt t m h
  rwa [Word.ofInt, Word.ofInt_valueOf] at hcut

end Operators

theorem IntType.neg_least {t : IntType} (hs : t.signed = true) :
    -t.least = t.least + 2 ^ t.bits := by
  revert hs
  cases t <;> decide

/-- The one quotient of integers of a signed type that is too large wraps around. -/
theorem BinaryOp.onWords_least {t : IntType} (hs : t.signed = true) {a b : BitVec t.bits}
    (ha : Word.valueOf t a = t.least) (hb : Word.valueOf t b = -1) :
    quo.onWords t a b = .ok (.int ⟨t, a⟩) ∧ rem.onWords t a b = .ok (.int (.ofInt t 0)) := by
  have hquo : quo.onInts? (Word.valueOf t a) (Word.valueOf t b) = some (-t.least) := by
    simp [onInts?, ha, hb, Int.tdiv_neg]
  have hrem : rem.onInts? (Word.valueOf t a) (Word.valueOf t b) = some 0 := by
    simp [onInts?, ha, hb, Int.tmod_neg]
  have hcut : BitVec.ofInt t.bits (-t.least) = a := by
    rw [← Word.ofInt_valueOf a, ha, ofInt_eq_ofInt_iff, IntType.neg_least hs]
    exact Int.add_modEq_right
  refine ⟨?_, onWords_of_exact a b hrem⟩
  rw [onWords_of_exact a b hquo, Word.ofInt, hcut]

/-- **Operators on integers are exact modular arithmetic.** Take two words of one integer type,
whichever of the eleven. An operator with an exact result on the integers that they stand for gives
a word of the same type, which stands for the only integer of the type that is congruent to that
result modulo two to the width. This concerns sums, differences and products, quotients rounded
toward zero, remainders with the sign of the dividend, the operators on bits, negation, and the
complement. An operator fails exactly if it divides by zero. Dividing the least integer of a
signed type by minus one gives the least integer again, with remainder zero. Comparisons are those
of the integers. -/
theorem Word.operators_are_exact_modulo_width (x y : Word) (h : y.ty = x.ty) (m : Memory) :
    (∀ (op : BinaryOp) (n : Int), op.onInts? x.toInt y.toInt = some n →
        ∃ w, op.eval (.int x) (.int y) = .ok (.int w) ∧ w.Wraps x.ty n) ∧
      (∀ (op : BinaryOp) (fault : Fault), op.eval (.int x) (.int y) = .error fault ↔
        (op = .quo ∨ op = .rem) ∧ y.toInt = 0 ∧ fault = .divisionByZero) ∧
      (∀ c : Comparison, (BinaryOp.compare c).eval (.int x) (.int y)
        = .ok (.bool (decide (c.Holds x.toInt y.toInt)))) ∧
      (∀ (op : UnaryOp) (n : Int), op.onInt? x.toInt = some n →
        ∃ w, op.eval m (.int x) = .ok (.int w) ∧ w.Wraps x.ty n) ∧
      (x.ty.signed = true → x.toInt = x.ty.least → y.toInt = -1 →
        BinaryOp.quo.eval (.int x) (.int y) = .ok (.int x) ∧
          BinaryOp.rem.eval (.int x) (.int y) = .ok (.int (.ofInt x.ty 0))) := by
  obtain ⟨t, a⟩ := x
  obtain ⟨u, b⟩ := y
  obtain rfl : u = t := h
  simp only [BinaryOp.eval_int]
  refine ⟨fun op n hn => ?_, fun op fault => ?_, fun c => ?_, fun op n hn => ?_, fun hs ha hb => ?_⟩
  · exact ⟨_, BinaryOp.onWords_of_exact a b hn, wraps_ofInt u n⟩
  · exact BinaryOp.onWords_eq_error_iff a b
  · rw [← Comparison.test_eq_decide]
    rfl
  · exact ⟨_, UnaryOp.eval_of_exact a m hn, wraps_ofInt u n⟩
  · exact BinaryOp.onWords_least hs ha hb

/-- With the least integer of eight bits and minus one, quotient and product wrap around. -/
theorem Word.operators_are_exact_modulo_width_int8 :
    BinaryOp.quo.eval (.int (.ofInt .int8 (-128))) (.int (.ofInt .int8 (-1)))
        = .ok (.int (.ofInt .int8 (-128))) ∧
      BinaryOp.rem.eval (.int (.ofInt .int8 (-128))) (.int (.ofInt .int8 (-1)))
        = .ok (.int (.ofInt .int8 0)) ∧
      ∃ w : Word, BinaryOp.mul.eval (.int (.ofInt .int8 (-128))) (.int (.ofInt .int8 (-1)))
        = .ok (.int w) ∧ w.Wraps .int8 128 := by
  obtain ⟨hexact, -, -, -, hleast⟩ :=
    operators_are_exact_modulo_width (.ofInt .int8 (-128)) (.ofInt .int8 (-1)) rfl .empty
  obtain ⟨hquo, hrem⟩ := hleast rfl (by decide) (by decide)
  exact ⟨hquo, hrem, hexact .mul 128 (by decide)⟩

end SsaMachine
