import SsaMachine.Operator.Eval
import Mathlib.Algebra.Group.Nat.Defs
import Mathlib.Data.List.Lex

set_option autoImplicit false

/-! # The order of strings

Strings are compared by their code points, while outside of the program a string is a sequence of
bytes. The two orders are the same (`BinaryOp.string_order_is_code_point_order`), because of the
way in which UTF-8 writes a code point:

* **One length.** The bytes of a code point are its digits to the base 64, the most significant
  first, with a fixed number added to each (`Utf8.digits`). Code points that are written with
  equally many bytes are therefore ordered by the first byte in which they differ
  (`Utf8.precedes_digits`).
* **Two lengths.** The first byte of a longer sequence is larger than the first byte of any
  shorter one (`Utf8.firstByte_lt`).

In both cases there is a byte in which the two sequences differ, so what comes after it does not
count, and neither sequence continues the other (`Precedes`). This carries over from code points
to strings (`lex_flatMap`).

Only one direction has to be proved for that, and for every other way to look at a string: a
function that respects one total order into another also reflects it
(`Comparison.holdsIn_map_iff`).
-/

namespace SsaMachine

/-! ## Comparisons in an order -/

/-- What the comparison says about two things if `before` is their order. -/
def Comparison.HoldsIn {α : Type} (before : α → α → Prop) (x y : α) : Comparison → Prop
  | eq => x = y
  | ne => x ≠ y
  | lt => before x y
  | le => before x y ∨ x = y
  | gt => before y x
  | ge => before y x ∨ x = y

section Orders

variable {α β : Type} {r : α → α → Prop} {q : β → β → Prop} {x y : α}

/-- A function that respects a total order reflects every comparison. -/
theorem Comparison.holdsIn_map_iff [Std.Trichotomous r] [Std.Asymm q] {g : α → β}
    (hg : ∀ x y, r x y → q (g x) (g y)) (c : Comparison) :
    c.HoldsIn q (g x) (g y) ↔ c.HoldsIn r x y := by
  have hirrefl : ∀ b, ¬ q b b := fun b hb => Std.Asymm.asymm b b hb hb
  have heq : ∀ x y, g x = g y ↔ x = y := by
    intro x y
    refine ⟨fun h => ?_, congrArg g⟩
    refine Std.Trichotomous.trichotomous (r := r) x y (fun hxy => ?_) fun hyx => ?_
    · exact hirrefl (g y) (h ▸ hg x y hxy)
    · exact hirrefl (g y) (h ▸ hg y x hyx)
  have hlt : ∀ x y, q (g x) (g y) ↔ r x y := by
    intro x y
    refine ⟨fun h => ?_, hg x y⟩
    by_contra hxy
    -- of the three possibilities, equality and the other order are against `h`
    have hyx : ¬ r y x := fun hyx => Std.Asymm.asymm _ _ h (hg y x hyx)
    have hsame : x = y := Std.Trichotomous.trichotomous x y hxy hyx
    exact hirrefl (g y) (hsame ▸ h)
  cases c with
  | eq => exact heq x y
  | ne => exact not_congr (heq x y)
  | lt => exact hlt x y
  | le => exact or_congr (hlt x y) (heq x y)
  | gt => exact hlt y x
  | ge => exact or_congr (hlt y x) (heq x y)

/-- In a total order, one thing is before or equal to another exactly if the other is not before
it. -/
theorem before_or_eq_iff [Std.Trichotomous r] [Std.Asymm r] : r x y ∨ x = y ↔ ¬ r y x := by
  constructor
  · rintro (hxy | rfl) hyx
    · exact Std.Asymm.asymm _ _ hxy hyx
    · exact Std.Asymm.asymm _ _ hyx hyx
  · intro hyx
    by_cases hxy : r x y
    · exact .inl hxy
    · exact .inr (Std.Trichotomous.trichotomous x y hxy hyx)

/-- In a total order, exactly one of three comparisons holds. -/
theorem Comparison.existsUnique_holdsIn [Std.Trichotomous r] [Std.Asymm r] (x y : α) :
    ∃! c : Comparison, (c = .lt ∨ c = .eq ∨ c = .gt) ∧ c.HoldsIn r x y := by
  have hirrefl : ∀ x, ¬ r x x := fun x hx => Std.Asymm.asymm x x hx hx
  by_cases hxy : r x y
  · refine ⟨.lt, ⟨.inl rfl, hxy⟩, ?_⟩
    rintro c ⟨rfl | rfl | rfl, hc⟩
    · rfl
    · exact absurd (hc ▸ hxy) (hirrefl x)
    · exact absurd hc (Std.Asymm.asymm (r := r) _ _ hxy)
  · by_cases hyx : r y x
    · refine ⟨.gt, ⟨.inr (.inr rfl), hyx⟩, ?_⟩
      rintro c ⟨rfl | rfl | rfl, hc⟩
      · exact absurd hc hxy
      · exact absurd (hc ▸ hyx) (hirrefl x)
      · rfl
    · refine ⟨.eq, ⟨.inr (.inl rfl), Std.Trichotomous.trichotomous x y hxy hyx⟩, ?_⟩
      rintro c ⟨rfl | rfl | rfl, hc⟩
      · exact absurd hc hxy
      · rfl
      · exact absurd hc hyx

/-! ## Sequences that differ -/

/-- At the first place where the two lists differ, both have an entry, and that of `u` comes
first. -/
inductive Precedes (r : α → α → Prop) : List α → List α → Prop
  | here {a b : α} (h : r a b) (u v : List α) : Precedes r (a :: u) (b :: v)
  | later {u v : List α} (a : α) (h : Precedes r u v) : Precedes r (a :: u) (a :: v)

theorem Precedes.append_left {u v : List α} (h : Precedes r u v) :
    ∀ p : List α, Precedes r (p ++ u) (p ++ v)
  | [] => h
  | a :: p => .later a (h.append_left p)

/-- What follows the first difference does not count. -/
theorem Precedes.append_right {u v : List α} (h : Precedes r u v) (u' v' : List α) :
    Precedes r (u ++ u') (v ++ v') := by
  induction h with
  | here h u v => exact .here h _ _
  | later a h ih => exact .later a ih

theorem Precedes.lex {u v : List α} (h : Precedes r u v) : List.Lex r u v := by
  induction h with
  | here h u v => exact .rel h
  | later a h ih => exact .cons ih

/-- A code for single things that is never empty, and in which different things differ at some
place that both have, respects the lexicographic order. -/
theorem lex_flatMap {e : α → List β} (hne : ∀ a, e a ≠ [])
    (he : ∀ a b, r a b → Precedes q (e a) (e b)) {u v : List α} (h : List.Lex r u v) :
    List.Lex q (u.flatMap e) (v.flatMap e) := by
  induction h with
  | @nil a v =>
      obtain ⟨b, rest, hb⟩ := List.exists_cons_of_ne_nil (hne a)
      rw [List.flatMap_nil, List.flatMap_cons, hb]
      exact .nil
  | @rel a u b v hab =>
      rw [List.flatMap_cons, List.flatMap_cons]
      exact ((he a b hab).append_right _ _).lex
  | @cons a u v _ ih =>
      rw [List.flatMap_cons, List.flatMap_cons]
      exact List.Lex.append_left q ih _

end Orders

/-! ## The bytes of a code point -/

namespace Utf8

/-- How many bytes follow the first one. -/
def continuations (n : Nat) : Nat :=
  if n ≤ 127 then 0 else if n ≤ 2047 then 1 else if n ≤ 65535 then 2 else 3

/-- What the first byte has in addition to the leading digit, by the number of bytes that
follow. -/
def mark : Nat → Nat
  | 0 => 0
  | 1 => 192
  | 2 => 224
  | _ => 240

/-- The digits of `n` to the base 64, each with what is added to it; `k` digits follow the
leading one. -/
def digits (first : Nat) : (k : Nat) → Nat → List Nat
  | 0, n => [n + first]
  | k + 1, n => digits first k (n / 64) ++ [n % 64 + 128]

theorem digits_eq_cons (first : Nat) : ∀ k n : Nat,
    ∃ rest, digits first k n = (n / 64 ^ k + first) :: rest
  | 0, n => ⟨[], by simp [digits]⟩
  | k + 1, n => by
      obtain ⟨rest, hrest⟩ := digits_eq_cons first k (n / 64)
      have hpow : n / 64 / 64 ^ k = n / 64 ^ (k + 1) := by
        rw [Nat.div_div_eq_div_mul, Nat.pow_succ, Nat.mul_comm]
      exact ⟨rest ++ [n % 64 + 128], by rw [digits, hrest, hpow, List.cons_append]⟩

/-- With the same number of digits, the smaller number precedes. The induction takes the last digit
off: it decides if the others are equal. -/
theorem precedes_digits (first k : Nat) {m n : Nat} (h : m < n) :
    Precedes (· < ·) (digits first k m) (digits first k n) := by
  induction k generalizing m n with
  | zero => exact .here (by omega) [] []
  | succ k ih =>
      show Precedes (· < ·) (digits first k (m / 64) ++ [m % 64 + 128])
        (digits first k (n / 64) ++ [n % 64 + 128])
      by_cases hlead : m / 64 = n / 64
      · rw [hlead]
        have hlast : m % 64 + 128 < n % 64 + 128 := by omega
        exact (Precedes.here hlast [] []).append_left _
      · have hlt : m / 64 < n / 64 := by omega
        exact (ih hlt).append_right _ _

theorem continuations_cases (n : Nat) :
    (n ≤ 127 ∧ continuations n = 0) ∨ (127 < n ∧ n ≤ 2047 ∧ continuations n = 1) ∨
      (2047 < n ∧ n ≤ 65535 ∧ continuations n = 2) ∨ (65535 < n ∧ continuations n = 3) := by
  simp only [continuations]
  split_ifs <;> omega

theorem continuations_le {m n : Nat} (h : m ≤ n) : continuations m ≤ continuations n := by
  simp only [continuations]
  split_ifs <;> omega

/-- The first byte of a longer sequence is larger than that of a shorter one. -/
theorem firstByte_lt {m n : Nat} (h : continuations m < continuations n) :
    m / 64 ^ continuations m + mark (continuations m) <
      n / 64 ^ continuations n + mark (continuations n) := by
  rcases continuations_cases m with ⟨hm, hk⟩ | ⟨-, hm, hk⟩ | ⟨-, hm, hk⟩ | ⟨-, hk⟩ <;>
    rcases continuations_cases n with ⟨-, hj⟩ | ⟨hn, -, hj⟩ | ⟨hn, -, hj⟩ | ⟨hn, hj⟩ <;>
    simp only [hk, hj, mark] at h ⊢ <;> omega

/-- The bytes of a character are the digits of its code point. -/
theorem map_toNat_utf8EncodeChar (c : Char) :
    (String.utf8EncodeChar c).map UInt8.toNat =
      digits (mark (continuations c.toNat)) (continuations c.toNat) c.toNat := by
  have hlt : c.toNat < 1114112 := by
    rcases c.valid with h | ⟨-, h⟩
    · exact Nat.lt_trans h (by decide)
    · exact h
  have hval : c.val.toNat = c.toNat := rfl
  simp only [String.utf8EncodeChar, hval]
  -- every entry fits into a byte, so that nothing is cut off
  have hbyte : ∀ n < 256, (UInt8.ofNat n).toNat = n := fun n hn => UInt8.toNat_ofNat_of_lt' hn
  rcases continuations_cases c.toNat with ⟨hc, hk⟩ | ⟨hc, hc', hk⟩ | ⟨hc, hc', hk⟩ | ⟨hc, hk⟩
  · rw [hk, if_pos hc]
    simp (disch := omega) only [List.map_cons, List.map_nil, hbyte, digits, mark, Nat.add_zero]
  · rw [hk, if_neg (by omega), if_pos hc']
    simp (disch := omega) only [List.map_cons, List.map_nil, hbyte, digits, mark,
      Nat.mod_eq_of_lt, List.cons_append, List.nil_append]
  · rw [hk, if_neg (by omega), if_neg (by omega), if_pos hc']
    simp (disch := omega) only [List.map_cons, List.map_nil, hbyte, digits, mark,
      Nat.mod_eq_of_lt, List.cons_append, List.nil_append, Nat.div_div_eq_div_mul]
  · rw [hk, if_neg (by omega), if_neg (by omega), if_neg (by omega)]
    simp (disch := omega) only [List.map_cons, List.map_nil, hbyte, digits, mark,
      Nat.mod_eq_of_lt, List.cons_append, List.nil_append, Nat.div_div_eq_div_mul]

theorem precedes_utf8EncodeChar {c d : Char} (h : c < d) :
    Precedes (· < ·) ((String.utf8EncodeChar c).map UInt8.toNat)
      ((String.utf8EncodeChar d).map UInt8.toNat) := by
  have hlt : c.toNat < d.toNat := h
  rw [map_toNat_utf8EncodeChar, map_toNat_utf8EncodeChar]
  rcases Nat.lt_or_eq_of_le (continuations_le (Nat.le_of_lt hlt)) with hshort | hsame
  · obtain ⟨u, hu⟩ := digits_eq_cons (mark (continuations c.toNat)) (continuations c.toNat) c.toNat
    obtain ⟨v, hv⟩ := digits_eq_cons (mark (continuations d.toNat)) (continuations d.toNat) d.toNat
    rw [hu, hv]
    exact .here (firstByte_lt hshort) u v
  · rw [hsame]
    exact precedes_digits _ _ hlt

end Utf8

/-! ## Strings as sequences of numbers -/

namespace Text

/-- The bytes of a string in UTF-8, as numbers. -/
def bytes (s : String) : List Nat :=
  s.toUTF8.data.toList.map UInt8.toNat

/-- The code points of a string. -/
def codePoints (s : String) : List Nat :=
  s.toList.map Char.toNat

theorem bytes_eq_flatMap (s : String) :
    bytes s = s.toList.flatMap fun c => (String.utf8EncodeChar c).map UInt8.toNat := by
  rw [bytes, String.toUTF8, ← String.utf8Encode_toList, List.utf8Encode,
    List.toList_data_toByteArray, List.map_flatMap]

end Text

/-! ## What the operators do -/

/-- The comparison finds the two strings in the order that it asks for. -/
def Comparison.Finds (c : Comparison) (l r : String) : Prop :=
  (BinaryOp.compare c).eval (.string l) (.string r) = .ok (.bool true)

theorem BinaryOp.eval_compare_string (c : Comparison) (l r : String) :
    (compare c).eval (.string l) (.string r) = .ok (.bool (c.test l r)) := rfl

theorem BinaryOp.eval_add_string (s t : String) :
    add.eval (.string s) (.string t) = .ok (.string (s ++ t)) := rfl

theorem Comparison.test_iff (c : Comparison) (l r : String) :
    c.test l r = true ↔ c.HoldsIn (List.Lex (· < ·)) l.toList r.toList := by
  have heq : l = r ↔ l.toList = r.toList := String.toList_inj.symm
  have hle : ∀ u v : List Char, List.Lex (· < ·) u v ∨ u = v ↔ ¬ List.Lex (· < ·) v u :=
    fun u v => before_or_eq_iff
  cases c with
  | eq => simp only [test, beq_iff_eq, HoldsIn, heq]
  | ne => simp only [test, bne_iff_ne, HoldsIn, ne_eq, heq]
  | lt => exact decide_eq_true_iff
  | le =>
      rw [HoldsIn, hle]
      exact decide_eq_true_iff
  | gt => exact decide_eq_true_iff
  | ge =>
      rw [HoldsIn, eq_comm (a := l.toList), hle]
      exact decide_eq_true_iff

theorem Comparison.finds_iff {c : Comparison} {l r : String} :
    c.Finds l r ↔ c.HoldsIn (List.Lex (· < ·)) l.toList r.toList := by
  rw [← test_iff, Finds, BinaryOp.eval_compare_string]
  simp only [Except.ok.injEq, Value.bool.injEq]

theorem Comparison.test_iff_bytes (c : Comparison) (l r : String) :
    c.test l r = true ↔ c.HoldsIn (List.Lex (· < ·)) (Text.bytes l) (Text.bytes r) := by
  rw [Text.bytes_eq_flatMap, Text.bytes_eq_flatMap, test_iff]
  refine (holdsIn_map_iff (fun u v h => ?_) c).symm
  refine lex_flatMap (fun c => ?_) (fun c d hcd => ?_) h
  · simp
  · exact Utf8.precedes_utf8EncodeChar hcd

theorem Comparison.test_iff_codePoints (c : Comparison) (l r : String) :
    c.test l r = true ↔ c.HoldsIn (List.Lex (· < ·)) (Text.codePoints l) (Text.codePoints r) := by
  rw [test_iff]
  refine (holdsIn_map_iff (fun u v h => ?_) c).symm
  exact List.map_lt (f := Char.toNat) (fun _ _ h => h) h

/-- A common beginning does not count. -/
theorem Comparison.test_append (c : Comparison) (s l r : String) :
    c.test (s ++ l) (s ++ r) = c.test l r := by
  rw [Bool.eq_iff_iff, test_iff, test_iff, String.toList_append, String.toList_append]
  exact holdsIn_map_iff (fun u v h => List.Lex.append_left (· < ·) h s.toList) c

/-- **The order of strings.** Every comparison of two strings gives a truth value, and it is the one
that the lexicographic order of their bytes gives, and also the one that the lexicographic order of
their code points gives. So exactly one of the strings being less, equal and greater is found, the
other three comparisons are the negations of these, and what is less than something less is less.
The operator `+` puts strings one after the other, and `s + l` and `s + r` compare as `l` and `r`
do. -/
theorem BinaryOp.string_order_is_code_point_order (s l r : String) :
    (∀ c : Comparison, ∃ b, (compare c).eval (.string l) (.string r) = .ok (.bool b) ∧
        (b = true ↔ c.HoldsIn (List.Lex (· < ·)) (Text.bytes l) (Text.bytes r)) ∧
        (b = true ↔ c.HoldsIn (List.Lex (· < ·)) (Text.codePoints l) (Text.codePoints r))) ∧
      ((∃! c : Comparison, (c = .lt ∨ c = .eq ∨ c = .gt) ∧ c.Finds l r) ∧
        (Comparison.le.Finds l r ↔ ¬ Comparison.gt.Finds l r) ∧
        (Comparison.ge.Finds l r ↔ ¬ Comparison.lt.Finds l r) ∧
        (Comparison.ne.Finds l r ↔ ¬ Comparison.eq.Finds l r) ∧
        ∀ m, Comparison.lt.Finds l m → Comparison.lt.Finds m r → Comparison.lt.Finds l r) ∧
      add.eval (.string s) (.string l) = .ok (.string (s ++ l)) ∧
      add.eval (.string s) (.string r) = .ok (.string (s ++ r)) ∧
      ∀ c : Comparison, (compare c).eval (.string (s ++ l)) (.string (s ++ r))
        = (compare c).eval (.string l) (.string r) := by
  refine ⟨fun c => ?_, ⟨?_, ?_, ?_, ?_, fun m hlm hmr => ?_⟩, eval_add_string s l,
    eval_add_string s r, fun c => ?_⟩
  · exact ⟨_, eval_compare_string c l r, c.test_iff_bytes l r, c.test_iff_codePoints l r⟩
  · simp only [Comparison.finds_iff]
    exact Comparison.existsUnique_holdsIn l.toList r.toList
  · simp only [Comparison.finds_iff, Comparison.HoldsIn]
    exact before_or_eq_iff
  · simp only [Comparison.finds_iff, Comparison.HoldsIn]
    rw [← before_or_eq_iff, eq_comm]
  · simp only [Comparison.finds_iff, Comparison.HoldsIn, ne_eq]
  · rw [Comparison.finds_iff] at hlm hmr ⊢
    exact List.lt_trans hlm hmr
  · rw [eval_compare_string, eval_compare_string, Comparison.test_append]

/-- Where units of 16 bits would give the opposite answer. -/
example : Comparison.lt.Finds "\uffff" "😀" := by
  cbv

end SsaMachine
