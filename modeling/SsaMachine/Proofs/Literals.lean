import SsaMachine.Constant.Materialize
import SsaMachine.Proofs.Arithmetic
import Mathlib.Algebra.Order.Field.Power
import Mathlib.Algebra.Order.Field.Rat
import Mathlib.Tactic.Positivity

set_option autoImplicit false

/-! # Number literals at integer types

A number may be written with more digits than its type has room for. What becomes of it then is
settled here, for integer literals and for floating-point literals.

* **Integer literals** are cut to the width of the type. Cutting commutes with the operators other
  than division, so an expression of literals may be replaced by the literal of its exact value
  before or after the literals are cut (`Constant.folding_is_sound`).
* **Floating-point literals** without a fractional part are brought into the range of integer
  literals and cut afterwards. The first of these two steps is harmless in all cases but one
  (`Constant.float_literals_wrap_below_limit`): a floating-point number outside that range is a
  multiple of two to the width of every type (`BinaryFormat.two_pow_dvd_of_le`), and so is the least
  integer literal, which replaces the numbers that are too small; but the greatest integer literal,
  which replaces those that are too large, is odd.

The exact value of a floating-point number is taken from the language's own account of its bits, and
the decoder of this library is shown to agree with it (`BinaryFormat.decode_double`).
-/

namespace SsaMachine

open Float.Model Float.Model.UnpackedFloat

/-! ## Integer literals -/

/-- An integer literal at an integer type. -/
def Constant.integer (t : IntType) (n : Int) : Constant :=
  ⟨.int t, .int n⟩

@[simp] theorem Constant.materialize_integer (t : IntType) (n : Int) :
    (integer t n).materialize = .ok (.int (.ofInt t n)) := rfl

theorem BinaryOp.isModular_iff {op : BinaryOp} :
    op.isModular = true ↔ op ∈ [add, sub, mul, and, or, xor, andNot] := by
  cases op <;> simp [isModular]

/-- Only division can be without an exact result. -/
theorem BinaryOp.exists_onInts? {op : BinaryOp} (h : op.isModular = true) (x y : Int) :
    ∃ n, op.onInts? x y = some n := by
  cases op with
  | quo => cases h
  | rem => cases h
  | compare c => cases h
  | _ => exact ⟨_, rfl⟩

/-- **Folding constants is sound.** Take two integer literals of any size at one integer type, and
one of the operators that are not divisions or comparisons. The operator has an exact result, on
bits in two's complement, and applied to the values of the literals it gives the value of the
literal of that result. The same holds for negation and complement. A word is the value of the
literal that it stands for. -/
theorem Constant.folding_is_sound (t : IntType) (m : Memory) :
    (∀ op : BinaryOp, op ∈ [.add, .sub, .mul, .and, .or, .xor, .andNot] → ∀ a b : Int,
        ∃ n x y v, op.onInts? a b = some n ∧
          (integer t a).materialize = .ok x ∧ (integer t b).materialize = .ok y ∧
          op.eval x y = .ok v ∧ (integer t n).materialize = .ok v) ∧
      (∀ op : UnaryOp, op ∈ [.neg, .complement] → ∀ a : Int,
        ∃ n x v, op.onInt? a = some n ∧ (integer t a).materialize = .ok x ∧
          op.eval m x = .ok v ∧ (integer t n).materialize = .ok v) ∧
      ∀ w : Word, w.ty = t → Word.ofInt t w.toInt = w := by
  refine ⟨fun op hop a b => ?_, fun op hop a => ?_, fun w hw => ?_⟩
  · have hmodular := BinaryOp.isModular_iff.mpr hop
    obtain ⟨n, hn⟩ := BinaryOp.exists_onInts? hmodular a b
    refine ⟨n, _, _, _, hn, materialize_integer t a, materialize_integer t b, ?_,
      materialize_integer t n⟩
    exact (BinaryOp.eval_int _ _ op).trans (BinaryOp.onWords_ofInt t hmodular hn)
  · obtain ⟨n, hn⟩ : ∃ n, op.onInt? a = some n := by
      rcases List.mem_pair.mp hop with rfl | rfl <;> exact ⟨_, rfl⟩
    exact ⟨n, _, _, hn, materialize_integer t a, UnaryOp.eval_ofInt t m hn, materialize_integer t n⟩
  · obtain ⟨u, bits⟩ := w
    obtain rfl : u = t := hw
    rw [Word.ofInt, Word.toInt, Word.ofInt_valueOf]

/-! ## The exact value of a floating-point number -/

/-- The exact number that a 64-bit floating-point number is. Infinities and what is not a number
have none. -/
def Literal.exactValue? (x : Float) : Option ℚ :=
  match x.toModel.unpack with
  | .zero _ => some 0
  | .finite sign mantissa exponent _ => some (sign.apply mantissa * 2 ^ exponent)
  | .infinity _ | .notANumber => none

/-- An integer from its sign and its magnitude. -/
def Decoded.signed (negative : Bool) (magnitude : Nat) : Int :=
  if negative then -magnitude else magnitude

/-- The exact number that a decoded pattern stands for, if it is finite. -/
def Decoded.value? : Decoded → Option ℚ
  | .finite negative mantissa exponent => some (signed negative mantissa * 2 ^ exponent)
  | _ => none

/-- What is unpacked from a number, as a decoded pattern. Zeros are subnormal numbers. -/
def Decoded.ofUnpacked : UnpackedFloat → Decoded
  | .zero sign => .finite (sign == .negative) 0 BinaryFormat.double.leastExponent
  | .finite sign mantissa exponent _ => .finite (sign == .negative) mantissa exponent
  | .infinity sign => .infinite (sign == .negative)
  | .notANumber => .nan

section Fields

variable (b : BitVec Format.binary64.numBits)

theorem toNat_unpackMantissa : (unpackMantissa b).toNat = b.toNat % 2 ^ 52 := by
  show (b.extractLsb 51 0).toNat = _
  simp

theorem toNat_unpackExponent : (unpackExponent b).toNat = b.toNat / 2 ^ 52 % 2 ^ 11 := by
  show (b.extractLsb 62 52).toNat = _
  simp [Nat.shiftRight_eq_div_pow]

theorem toNat_unpackSign : (unpackSign b).toNat = b.toNat / 2 ^ 63 % 2 := by
  show (b.extractLsb 63 63).toNat = _
  simp [Nat.shiftRight_eq_div_pow]

/-- The mantissa of a normal number has one bit more than is stored. -/
theorem toNat_implicit_unpackMantissa :
    (1#1 ++ unpackMantissa b).toNat = (unpackMantissa b).toNat + 2 ^ 52 := by
  rw [BitVec.toNat_append, ← Nat.shiftLeft_add_eq_or_of_lt (unpackMantissa b).isLt, Nat.add_comm]
  rfl

theorem ofBitVec_beq_negative (s : BitVec 1) :
    (Sign.ofBitVec s == .negative) = (s.toNat == 1) := by
  revert s
  decide

/-- Decoding looks at the same three fields as unpacking. -/
theorem BinaryFormat.decode_fields :
    double.decode b.toNat =
      if (unpackExponent b).toNat = 2047 then
        if (unpackMantissa b).toNat = 0 then
          .infinite (Sign.ofBitVec (unpackSign b) == .negative)
        else .nan
      else if (unpackExponent b).toNat = 0 then
        .finite (Sign.ofBitVec (unpackSign b) == .negative) (unpackMantissa b).toNat
          double.leastExponent
      else
        .finite (Sign.ofBitVec (unpackSign b) == .negative) ((unpackMantissa b).toNat + 2 ^ 52)
          (double.leastExponent + ((unpackExponent b).toNat - 1 : Nat)) := by
  rw [ofBitVec_beq_negative, toNat_unpackMantissa, toNat_unpackExponent, toNat_unpackSign]
  rfl

/-- **A decoded pattern is the number that the bits stand for.** -/
theorem BinaryFormat.decode_double :
    double.decode b.toNat = Decoded.ofUnpacked (unpack Format.binary64 b) := by
  have hones : unpackExponent b = -1#11 ↔ (unpackExponent b).toNat = 2047 :=
    BitVec.toNat_inj.symm
  have hsub : unpackExponent b = 0#11 ↔ (unpackExponent b).toNat = 0 := BitVec.toNat_inj.symm
  have hzero : unpackMantissa b = 0#52 ↔ (unpackMantissa b).toNat = 0 := BitVec.toNat_inj.symm
  rw [decode_fields]
  delta UnpackedFloat.unpack
  dsimp only
  -- unpacking goes by the same cases, in terms of the fields themselves
  by_cases he : (unpackExponent b).toNat = 2047
  · rw [if_pos he, if_pos (hones.mpr he)]
    by_cases hm : (unpackMantissa b).toNat = 0
    · rw [if_pos hm, if_pos (hzero.mpr hm)]
      rfl
    · rw [if_neg hm, if_neg (mt hzero.mp hm)]
      rfl
  · rw [if_neg he, if_neg (mt hones.mp he)]
    by_cases he0 : (unpackExponent b).toNat = 0
    · rw [if_pos he0, if_pos (hsub.mpr he0)]
      by_cases hm : (unpackMantissa b).toNat = 0
      · rw [dif_pos (hzero.mpr hm), hm]
        rfl
      · have hexp : ((unpackExponent b).toNat : Int) - (1023 + 52 : Nat) + 1
            = double.leastExponent := by
          rw [he0]
          rfl
        rw [dif_neg (mt hzero.mp hm), ← hexp]
        rfl
    · have hexp : ((unpackExponent b).toNat : Int) - (1023 + 52 : Nat)
          = double.leastExponent + ((unpackExponent b).toNat - 1 : Nat) := by
        show _ = -1074 + (((unpackExponent b).toNat - 1 : Nat) : Int)
        omega
      rw [if_neg he0, if_neg (mt hsub.mp he0), ← hexp, ← toNat_implicit_unpackMantissa]
      rfl

end Fields

theorem Decoded.value?_zero (negative : Bool) (e : Int) :
    (finite negative 0 e).value? = some 0 := by
  cases negative <;> simp [value?, signed]

theorem Literal.exactValue?_eq (x : Float) :
    exactValue? x = (BinaryFormat.double.decode x.toBits.toNat).value? := by
  have hdecode : BinaryFormat.double.decode x.toBits.toNat = .ofUnpacked x.toModel.unpack :=
    BinaryFormat.decode_double x.toModel.toBits.toBitVec
  rw [hdecode, exactValue?]
  cases x.toModel.unpack with
  | zero sign => exact (Decoded.value?_zero _ _).symm
  | finite sign mantissa exponent hpos => cases sign <;> rfl
  | infinity sign => rfl
  | notANumber => rfl

/-! ## Floating-point numbers that are integers -/

namespace Decoded

theorem signed_mul (negative : Bool) (m k : Nat) :
    signed negative (m * k) = signed negative m * k := by
  cases negative <;> simp [signed]

theorem abs_signed (negative : Bool) (m : Nat) : |signed negative m| = m := by
  cases negative <;> simp [signed]

theorem natCast_dvd_signed (negative : Bool) {k m : Nat} :
    (k : Int) ∣ signed negative m ↔ k ∣ m := by
  rw [← Int.natCast_dvd_natCast, ← abs_signed negative m, dvd_abs]

theorem mul_two_zpow_eq_of_nonneg {s n e : Int} (he : 0 ≤ e) :
    (s : ℚ) * 2 ^ e = n ↔ s * 2 ^ e.natAbs = n := by
  obtain ⟨k, rfl⟩ := Int.eq_ofNat_of_zero_le he
  rw [zpow_natCast, Int.natAbs_natCast]
  exact_mod_cast Iff.rfl

theorem mul_two_zpow_eq_of_neg {s n e : Int} (he : e < 0) :
    (s : ℚ) * 2 ^ e = n ↔ s = n * 2 ^ e.natAbs := by
  obtain ⟨k, rfl⟩ := Int.eq_negSucc_of_lt_zero he
  rw [zpow_negSucc, ← div_eq_mul_inv, div_eq_iff (by positivity), Int.natAbs_negSucc]
  exact_mod_cast Iff.rfl

theorem integer?_finite (negative : Bool) (m : Nat) (e : Int) :
    (finite negative m e).integer? =
      if 0 ≤ e then some (signed negative m * 2 ^ e.natAbs)
      else if m % 2 ^ e.natAbs = 0 then some (signed negative (m / 2 ^ e.natAbs)) else none := by
  by_cases he : 0 ≤ e
  · cases negative <;> simp [integer?, signed, he]
  · by_cases hm : m % 2 ^ e.natAbs = 0
    · cases negative <;> simp [integer?, signed, he, hm]
    · simp [integer?, he, hm]

/-- A number has an integer exactly if it is equal to one. -/
theorem integer?_eq_some_iff {d : Decoded} {n : Int} :
    d.integer? = some n ↔ d.value? = some (n : ℚ) := by
  cases d with
  | nan => simp [integer?, value?]
  | infinite negative => simp [integer?, value?]
  | finite negative m e =>
      rw [value?, Option.some.injEq, integer?_finite]
      by_cases he : 0 ≤ e
      · rw [if_pos he, Option.some.injEq, mul_two_zpow_eq_of_nonneg he]
      · rw [if_neg he, mul_two_zpow_eq_of_neg (Int.not_le.mp he)]
        by_cases hm : m % 2 ^ e.natAbs = 0
        · obtain ⟨q, rfl⟩ := Nat.dvd_of_mod_eq_zero hm
          rw [if_pos hm, Nat.mul_div_cancel_left _ (Nat.two_pow_pos _), Nat.mul_comm, signed_mul,
            Option.some.injEq, Nat.cast_pow, Nat.cast_ofNat, mul_left_inj' (by positivity)]
        · -- an integer would make the mantissa a multiple of the power of two
          rw [if_neg hm]
          refine iff_of_false (by simp) fun h => hm (Nat.mod_eq_zero_of_dvd ?_)
          rw [← natCast_dvd_signed negative, h]
          exact ⟨n, by push_cast; exact mul_comm _ _⟩

end Decoded

theorem BinaryFormat.mantissa_lt {f : BinaryFormat} {pattern : Nat} {negative : Bool} {m : Nat}
    {e : Int} (h : f.decode pattern = .finite negative m e) : m < 2 ^ (f.fractionBits + 1) := by
  have hfraction : pattern % Nat.pow 2 f.fractionBits < 2 ^ f.fractionBits :=
    Nat.mod_lt _ (Nat.two_pow_pos _)
  rw [Nat.pow_succ]
  unfold decode at h
  dsimp only at h
  split at h
  · split at h <;> cases h
  · split at h
    · cases h
      omega
    · cases h
      rw [Nat.pow_eq] at *
      omega

/-- **A large number is a multiple of a power of two**: its mantissa is short, so it is large because
of its exponent. -/
theorem BinaryFormat.two_pow_dvd_of_le {f : BinaryFormat} {pattern w : Nat} {n : Int}
    (h : (f.decode pattern).value? = some (n : ℚ)) (hn : 2 ^ (f.fractionBits + 1 + w) ≤ |n|) :
    (2 : Int) ^ w ∣ n := by
  cases hd : f.decode pattern with
  | nan => simp [hd, Decoded.value?] at h
  | infinite negative => simp [hd, Decoded.value?] at h
  | finite negative m e =>
      rw [hd, Decoded.value?, Option.some.injEq] at h
      have hm : (m : ℚ) < 2 ^ (f.fractionBits + 1) := by exact_mod_cast mantissa_lt hd
      have he : (w : Int) ≤ e := by
        by_contra hlt
        have hpow : (2 : ℚ) ^ e ≤ 2 ^ w := by
          rw [← zpow_natCast]
          exact zpow_le_zpow_right₀ (by norm_num) (by omega)
        have hsmall : (|n| : ℚ) < 2 ^ (f.fractionBits + 1 + w) := by
          calc (|n| : ℚ) = m * 2 ^ e := by
                rw [← h, abs_mul, abs_of_pos (zpow_pos (by norm_num : (0 : ℚ) < 2) e)]
                congr 1
                exact_mod_cast Decoded.abs_signed negative m
            _ ≤ m * 2 ^ w := by gcongr
            _ < 2 ^ (f.fractionBits + 1) * 2 ^ w := by gcongr
            _ = 2 ^ (f.fractionBits + 1 + w) := (pow_add 2 _ w).symm
        exact absurd hn (not_le.mpr (by exact_mod_cast hsmall))
      rw [Decoded.mul_two_zpow_eq_of_nonneg (by omega)] at h
      rw [← h]
      exact Dvd.dvd.mul_left (pow_dvd_pow 2 (by omega)) _

/-! ## Floating-point literals -/

namespace Literal

theorem integerOfFloat?_of_exactValue? {x : Float} {n : Int} (h : exactValue? x = some (n : ℚ)) :
    integerOfFloat? x = some (saturate n) := by
  rw [exactValue?_eq, ← Decoded.integer?_eq_some_iff] at h
  rw [integerOfFloat?, h]
  rfl

theorem integerOfFloat?_eq_none {x : Float} (h : ∀ n : Int, exactValue? x ≠ some (n : ℚ)) :
    integerOfFloat? x = none := by
  rw [integerOfFloat?, Option.map_eq_none_iff, Option.eq_none_iff_forall_ne_some]
  intro n hn
  rw [Decoded.integer?_eq_some_iff, ← exactValue?_eq] at hn
  exact h n hn

/-- A number beyond the range of integer literals is a multiple of two to every width. -/
theorem two_pow_bits_dvd {x : Float} {n : Int} (t : IntType) (h : exactValue? x = some (n : ℚ))
    (hn : 2 ^ 127 ≤ |n|) : (2 : Int) ^ t.bits ∣ n := by
  rw [exactValue?_eq] at h
  have hlarge : (2 : Int) ^ (BinaryFormat.double.fractionBits + 1 + 64) ≤ |n| :=
    le_trans (by decide) hn
  have hbits : t.bits ≤ 64 := by cases t <;> decide
  exact (pow_dvd_pow 2 hbits).trans (BinaryFormat.two_pow_dvd_of_le h hlarge)

theorem saturate_of_inRange {n : Int} (hlo : -2 ^ 127 ≤ n) (hhi : n < 2 ^ 127) :
    saturate n = n := by
  simp only [saturate, leastInt, greatestInt, Nat.pow_eq]
  omega

theorem saturate_of_lt {n : Int} (h : n < -2 ^ 127) : saturate n = -2 ^ 127 := by
  simp only [saturate, leastInt, greatestInt, Nat.pow_eq]
  omega

theorem saturate_of_le {n : Int} (h : 2 ^ 127 ≤ n) : saturate n = 2 ^ 127 - 1 := by
  simp only [saturate, leastInt, greatestInt, Nat.pow_eq]
  omega

end Literal

theorem Word.ofInt_congr {t : IntType} {m n : Int} (h : m ≡ n [ZMOD 2 ^ t.bits]) :
    Word.ofInt t m = Word.ofInt t n := by
  rw [ofInt, ofInt, ofInt_eq_ofInt_iff.mpr h]

theorem Word.Wraps.modEq {w : Word} {t : IntType} {n : Int} (h : w.Wraps t n) :
    w.toInt ≡ n [ZMOD 2 ^ t.bits] :=
  ((h.unique _).mpr rfl).2

/-- Both limits of integer literals are next to a multiple of two to every width. -/
theorem IntType.two_pow_bits_dvd_limit (t : IntType) : (2 : Int) ^ t.bits ∣ 2 ^ 127 := by
  have hbits : t.bits ≤ 127 := by cases t <;> decide
  exact pow_dvd_pow 2 hbits

/-- Below the upper limit of integer literals it does not matter that a floating-point literal is
brought into their range first. -/
theorem Word.ofInt_saturate {t : IntType} {n : Int} (hn : n < 2 ^ 127)
    (hdvd : 2 ^ 127 ≤ |n| → (2 : Int) ^ t.bits ∣ n) :
    Word.ofInt t (Literal.saturate n) = Word.ofInt t n := by
  by_cases hlo : -2 ^ 127 ≤ n
  · rw [Literal.saturate_of_inRange hlo hn]
  · have hneg : n < -2 ^ 127 := Int.not_le.mp hlo
    have habs : 2 ^ 127 ≤ |n| := by
      rw [abs_of_neg (by omega)]
      omega
    have hleast : -2 ^ 127 ≡ 0 [ZMOD 2 ^ t.bits] :=
      Int.modEq_zero_iff_dvd.mpr t.two_pow_bits_dvd_limit.neg_right
    rw [Literal.saturate_of_lt hneg]
    exact Word.ofInt_congr (hleast.trans (Int.modEq_zero_iff_dvd.mpr (hdvd habs)).symm)

/-- At the upper limit and above, the literal becomes the word of minus one. -/
theorem Word.ofInt_saturate_of_le {t : IntType} {n : Int} (hn : 2 ^ 127 ≤ n) :
    Word.ofInt t (Literal.saturate n) = Word.ofInt t (-1) := by
  rw [Literal.saturate_of_le hn]
  refine Word.ofInt_congr (Int.modEq_iff_dvd.mpr ?_)
  have hdiff : (-1 : Int) - (2 ^ 127 - 1) = -2 ^ 127 := by omega
  rw [hdiff]
  exact t.two_pow_bits_dvd_limit.neg_right

theorem Constant.materialize_float {T : Ty} {t : IntType} (hT : T.defaulted = .int t) (x : Float) :
    materialize ⟨T, .float x⟩ =
      match Literal.integerOfFloat? x with
      | some n => .ok (.int (.ofInt t n))
      | none => .error (.unsupportedConstant (.float x) (.int t)) := by
  cases hn : Literal.integerOfFloat? x <;> simp [materialize, hT, hn]

/-- The word of minus one does not stand for a multiple of two to its width. -/
theorem Word.not_wraps_of_dvd {t : IntType} {n : Int} (h : (2 : Int) ^ t.bits ∣ n) :
    ¬ (Word.ofInt t (-1)).Wraps t n := by
  intro hwraps
  have hmod : -1 ≡ 0 [ZMOD 2 ^ t.bits] :=
    ((wraps_ofInt t (-1)).modEq.symm.trans hwraps.modEq).trans (Int.modEq_zero_iff_dvd.mpr h)
  have hdvd := Int.modEq_zero_iff_dvd.mp hmod
  revert hdvd
  cases t <;> decide

/-- **Floating-point literals wrap around below the upper limit of integer literals.** Take a
floating-point literal at a type whose default is an integer type. If the literal is equal to an
integer below two to the power of 127, however small, then its value is the word that stands for the
integer of the type congruent to it. If the integer is larger, then the value is the word of minus
one, although zero would be congruent. A literal that is no integer, be it infinite, not a
number, or with a fractional part, has no value. -/
theorem Constant.float_literals_wrap_below_limit {T : Ty} {t : IntType} (hT : T.defaulted = .int t)
    (x : Float) :
    (∀ n : Int, Literal.exactValue? x = some (n : ℚ) → n < 2 ^ 127 →
        ∃ w : Word, materialize ⟨T, .float x⟩ = .ok (.int w) ∧ w.Wraps t n) ∧
      (∀ n : Int, Literal.exactValue? x = some (n : ℚ) → 2 ^ 127 ≤ n →
        ∃ w : Word, materialize ⟨T, .float x⟩ = .ok (.int w) ∧ w.Wraps t (-1) ∧
          (Word.ofInt t 0).Wraps t n ∧ ¬ w.Wraps t n) ∧
      ((∀ n : Int, Literal.exactValue? x ≠ some (n : ℚ)) →
        materialize ⟨T, .float x⟩ = .error (.unsupportedConstant (.float x) (.int t))) := by
  rw [materialize_float hT]
  refine ⟨fun n hx hn => ?_, fun n hx hn => ?_, fun hx => ?_⟩
  · rw [Literal.integerOfFloat?_of_exactValue? hx]
    refine ⟨_, rfl, ?_⟩
    rw [Word.ofInt_saturate hn fun habs => Literal.two_pow_bits_dvd t hx habs]
    exact Word.wraps_ofInt t n
  · have hdvd : (2 : Int) ^ t.bits ∣ n :=
      Literal.two_pow_bits_dvd t hx (le_trans hn (le_abs_self n))
    rw [Literal.integerOfFloat?_of_exactValue? hx]
    refine ⟨_, rfl, ?_⟩
    rw [Word.ofInt_saturate_of_le hn]
    refine ⟨Word.wraps_ofInt t (-1), ?_, Word.not_wraps_of_dvd hdvd⟩
    rw [Word.ofInt_congr (Int.modEq_zero_iff_dvd.mpr hdvd).symm]
    exact Word.wraps_ofInt t n
  · rw [Literal.integerOfFloat?_eq_none hx]

theorem Literal.exactValue?_eq_some {x : Float} {n : Int}
    (h : (BinaryFormat.double.decode x.toBits.toNat).integer? = some n) :
    exactValue? x = some (n : ℚ) := by
  rw [exactValue?_eq]
  exact Decoded.integer?_eq_some_iff.mp h

/-- The patterns are those of two to the power of 127, of minus two to the power of 128, and of one
half. The first becomes minus one, the second wraps around to zero, the third has no value. -/
theorem Constant.float_literals_wrap_below_limit_powers :
    (∃ w : Word, materialize ⟨.untyped .rune, .float (.ofBits 0x47e0000000000000)⟩ = .ok (.int w) ∧
        w.Wraps .int32 (-1)) ∧
      (∃ w : Word, materialize ⟨.int .uint8, .float (.ofBits 0xc7f0000000000000)⟩ = .ok (.int w) ∧
        w.Wraps .uint8 (-2 ^ 128)) ∧
      materialize ⟨.untyped .int, .float (.ofBits 0x3fe0000000000000)⟩
        = .error (.unsupportedConstant (.float (.ofBits 0x3fe0000000000000)) (.int .int)) := by
  obtain ⟨-, hlarge, -⟩ := float_literals_wrap_below_limit (T := .untyped .rune) rfl
    (.ofBits 0x47e0000000000000)
  obtain ⟨hsmall, -, -⟩ := float_literals_wrap_below_limit (T := .int .uint8) rfl
    (.ofBits 0xc7f0000000000000)
  obtain ⟨-, -, hhalf⟩ := float_literals_wrap_below_limit (T := .untyped .int) rfl
    (.ofBits 0x3fe0000000000000)
  refine ⟨?_, ?_, ?_⟩
  · obtain ⟨w, hw, hwraps, -⟩ := hlarge (2 ^ 127) (Literal.exactValue?_eq_some (by decide)) le_rfl
    exact ⟨w, hw, hwraps⟩
  · exact hsmall (-2 ^ 128) (Literal.exactValue?_eq_some (by decide)) (by decide)
  · refine hhalf fun n hn => ?_
    have hnone : (BinaryFormat.double.decode
        (Float.ofBits 0x3fe0000000000000).toBits.toNat).integer? = none := by decide
    rw [Literal.exactValue?_eq, ← Decoded.integer?_eq_some_iff, hnone] at hn
    cases hn

/-- Two to the power of 127 is an integer, and at the type of bytes its value is not the byte
congruent to it. -/
theorem Constant.literal_does_not_wrap_at_limit :
    Literal.exactValue? (.ofBits 0x47e0000000000000) = some ((2 ^ 127 : Int) : ℚ) ∧
      ¬ ∃ w : Word, materialize ⟨.int .uint8, .float (.ofBits 0x47e0000000000000)⟩ = .ok (.int w) ∧
        w.Wraps .uint8 (2 ^ 127) := by
  refine ⟨Literal.exactValue?_eq_some (by decide), ?_⟩
  rintro ⟨w, hw, hwraps⟩
  have hvalue : materialize ⟨.int .uint8, .float (.ofBits 0x47e0000000000000)⟩
      = .ok (.int (.ofInt .uint8 (-1))) := rfl
  rw [hvalue] at hw
  cases hw
  exact Word.not_wraps_of_dvd (by decide) hwraps

end SsaMachine
