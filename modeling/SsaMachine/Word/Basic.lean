import SsaMachine.Word.IntType

set_option autoImplicit false

/-! # Words

A `Word` is an integer value of a program: its type together with that many bits. The bits
are the representation and the integer `Word.toInt` is a view of them, so a word is in range
by construction, and every operation below is one on bits. What an operation means for the
integers (exact arithmetic, reduced modulo a power of two) is a statement about that view.
-/

namespace SsaMachine

/-- An integer value: a type and as many bits as the type is wide. -/
structure Word where
  ty : IntType
  bits : BitVec ty.bits
  deriving DecidableEq

namespace Word

/-- The word of type `t` that is congruent to `n` modulo two to the width of `t`. -/
def ofInt (t : IntType) (n : Int) : Word :=
  ⟨t, BitVec.ofInt t.bits n⟩

/-- The integer that bits of type `t` stand for. -/
def valueOf (t : IntType) (b : BitVec t.bits) : Int :=
  if t.signed then b.toInt else b.toNat

/-- The integer that the word stands for. -/
def toInt (w : Word) : Int :=
  valueOf w.ty w.bits

/-- The decimal text of the word. -/
def text (w : Word) : String :=
  toString w.toInt

/-- Applies a function on bits, keeping the type. -/
def map (w : Word) (f : BitVec w.ty.bits → BitVec w.ty.bits) : Word :=
  ⟨w.ty, f w.bits⟩

/-- The additive inverse modulo two to the width. -/
def neg (w : Word) : Word :=
  w.map (- ·)

/-- Every bit flipped. -/
def complement (w : Word) : Word :=
  w.map (~~~ ·)

end Word

/-- The integer that a word stands for is one of its type. -/
theorem Word.inRange_toInt (w : Word) : w.ty.InRange w.toInt := by
  obtain ⟨t, b⟩ := w
  have hpos := t.bits_pos
  simp only [Word.toInt, Word.valueOf, IntType.InRange, IntType.least, IntType.greatest, Nat.pow_eq]
  cases hs : t.signed with
  | false =>
      have hlt := b.isLt
      simp only [Bool.false_eq_true, if_false]
      omega
  | true =>
      have hlo := BitVec.le_toInt b
      have hhi := @BitVec.toInt_lt _ b
      simp only [if_true, Int.natCast_pow, Int.cast_ofNat_Int]
      omega

namespace IntType

/-- The quotient of two words of one type, rounded toward zero. The one quotient that does
not fit, the least integer divided by minus one, wraps around to the least integer. -/
def quotient (t : IntType) (a b : BitVec t.bits) : BitVec t.bits :=
  if t.signed then a.sdiv b else a.udiv b

/-- The remainder that belongs to `quotient`: it has the sign of the dividend. -/
def remainder (t : IntType) (a b : BitVec t.bits) : BitVec t.bits :=
  if t.signed then a.srem b else a.umod b

end IntType

end SsaMachine
