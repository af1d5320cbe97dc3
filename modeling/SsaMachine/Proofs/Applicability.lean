import SsaMachine.Proofs.Arithmetic

set_option autoImplicit false

/-! # When an operator fails, and how

Applying an operator to two values has one of four outcomes: the operands do not fit each other,
the operator divides by zero, it does not apply to values of this kind, or there is a result. This
file says for all operators and all values which of the four it is
(`BinaryOp.eval_fails_exactly`).

Which operators apply is a matter of the kind of the operands alone. `BinaryOp.appliesTo` is the
table, and each of the evaluators for one sort of values is shown to follow it
(`BinaryOp.Follows`). Evaluation of operands that fit is then the table, except for division; and
the four outcomes exclude each other, so that each is characterized by the conditions under which it
was reached (`BinaryOp.outcome_eval`).

Kinds are reported by name. No two of them have the same name (`Kind.name_injective`), although
several share a representation.
-/

namespace SsaMachine

/-! ## Names of kinds -/

/-- All kinds. -/
def Kind.all : List Kind :=
  [.bool, .string, .pointer, .unit] ++ IntType.all.map .int ++ [.float .float32, .float .float64]

theorem Kind.mem_all (k : Kind) : k ∈ all := by
  cases k with
  | int t => simp [all, t.mem_all]
  | float t => cases t <;> decide
  | _ => decide

theorem Kind.name_injective {j k : Kind} (h : j.name = k.name) : j = k := by
  have hnames : (all.map name).Nodup := by decide
  exact List.inj_on_of_nodup_map hnames j.mem_all k.mem_all h

/-- Values are of one kind exactly if their kinds have the same name. -/
theorem Value.sameKind_iff_name {v w : Value} :
    v.sameKind w = true ↔ v.kind.name = w.kind.name := by
  rw [sameKind_iff]
  exact ⟨congrArg Kind.name, Kind.name_injective⟩

/-! ## Which operators apply -/

/-- Whether the operator is a comparison. -/
def BinaryOp.isComparison : BinaryOp → Bool
  | compare _ => true
  | _ => false

/-- Whether the operator applies to two values of the kind. -/
def BinaryOp.appliesTo (op : BinaryOp) : Kind → Bool
  | .int _ => true
  | .float _ => !([rem, and, or, xor, andNot].contains op)
  | .string => op == add || op.isComparison
  | .bool | .pointer => op == compare .eq || op == compare .ne
  | .unit => false

/-- The kind of the result, for operands of a kind that the operator applies to. -/
def BinaryOp.resultKind (op : BinaryOp) (k : Kind) : Kind :=
  if op.isComparison then .bool else k

/-- The evaluation of an operator on values of the kind follows the table: there is a result exactly
if the operator applies, and it is of the kind it should be. -/
structure BinaryOp.Follows (op : BinaryOp) (k : Kind) (result : Option Value) : Prop where
  isSome_eq : result.isSome = op.appliesTo k
  kind_eq : ∀ v, result = some v → v.kind = op.resultKind k

theorem BinaryOp.follows_onFloats? {α : Type} [Add α] [Sub α] [Mul α] [Div α]
    [BEq α] [LT α] [DecidableLT α] [LE α] [DecidableLE α] (wrap : α → FloatNum) {t : FloatType}
    (hwrap : ∀ x, (wrap x).ty = t) (op : BinaryOp) (x y : α) :
    op.Follows (.float t) (op.onFloats? wrap x y) := by
  have hkind : ∀ z, (Value.float (wrap z)).kind = .float t := fun z => congrArg Kind.float (hwrap z)
  cases op with
  | add => exact ⟨rfl, fun v hv => by cases hv; exact hkind _⟩
  | sub => exact ⟨rfl, fun v hv => by cases hv; exact hkind _⟩
  | mul => exact ⟨rfl, fun v hv => by cases hv; exact hkind _⟩
  | quo => exact ⟨rfl, fun v hv => by cases hv; exact hkind _⟩
  | compare c => exact ⟨rfl, fun v hv => by cases hv; rfl⟩
  | _ => exact ⟨rfl, fun v hv => by cases hv⟩

theorem BinaryOp.follows_onStrings? (op : BinaryOp) (s t : String) :
    op.Follows .string (op.onStrings? s t) := by
  cases op with
  | add => exact ⟨rfl, fun v hv => by cases hv; rfl⟩
  | compare c => exact ⟨by cases c <;> rfl, fun v hv => by cases hv; rfl⟩
  | _ => exact ⟨rfl, fun v hv => by cases hv⟩

/-- Truth values and addresses can be compared for equality, and nothing else. -/
theorem BinaryOp.follows_onEquality? {α : Type} [BEq α] {k : Kind} (hk : k = .bool ∨ k = .pointer)
    (op : BinaryOp) (x y : α) : op.Follows k (op.onEquality? x y) := by
  have happlies : op.appliesTo k = (op == compare .eq || op == compare .ne) := by
    rcases hk with rfl | rfl <;> rfl
  cases op with
  | compare c =>
      refine ⟨?_, fun v hv => ?_⟩
      · rw [happlies]
        cases c <;> rfl
      · obtain ⟨b, -, rfl⟩ := Option.map_eq_some_iff.mp hv
        rfl
  | _ => exact ⟨by rw [happlies]; rfl, fun v hv => by cases hv⟩

/-! ## The four outcomes -/

/-- No operator has anything to do with the operands: they are of different kinds, or both are the
unit. -/
def Value.Mismatched (l r : Value) : Prop :=
  l.sameKind r = false ∨ (l.isUnit = true ∧ r.isUnit = true)

/-- The operator divides an integer by zero. -/
def BinaryOp.DividesByZero (op : BinaryOp) (l r : Value) : Prop :=
  (op = .quo ∨ op = .rem) ∧ ∃ x y : Word, l = .int x ∧ r = .int y ∧ y.toInt = 0

/-- What applying the operator comes to, with the conditions for it. -/
inductive BinaryOp.Outcome (op : BinaryOp) (l r : Value) : Except Fault Value → Prop
  | mismatch (h : l.Mismatched r) :
      Outcome op l r (.error (.typeMismatch (.binary op) l.kind r.kind))
  | division (hfit : ¬ l.Mismatched r) (hzero : op.DividesByZero l r) :
      Outcome op l r (.error .divisionByZero)
  | invalid (hfit : ¬ l.Mismatched r) (hzero : ¬ op.DividesByZero l r)
      (hop : op.appliesTo l.kind = false) : Outcome op l r (.error (.invalidBinary op l.kind))
  | result (hfit : ¬ l.Mismatched r) (hzero : ¬ op.DividesByZero l r)
      (hop : op.appliesTo l.kind = true) {v : Value} (hv : v.kind = op.resultKind l.kind) :
      Outcome op l r (.ok v)

/-- Two values that an operator may have something to do with. -/
inductive Value.Fit : Value → Value → Prop
  | words {t : IntType} (a b : BitVec t.bits) : Fit (.int ⟨t, a⟩) (.int ⟨t, b⟩)
  | singles (x y : Float32) : Fit (.float (.single x)) (.float (.single y))
  | doubles (x y : Float) : Fit (.float (.double x)) (.float (.double y))
  | strings (s t : String) : Fit (.string s) (.string t)
  | bools (a b : Bool) : Fit (.bool a) (.bool b)
  | addresses (a b : Address) : Fit (.address a) (.address b)

theorem Value.Fit.not_mismatched {l r : Value} (h : l.Fit r) : ¬ l.Mismatched r := by
  cases h <;> simp [Mismatched, sameKind, kind, isUnit, FloatNum.ty]

/-- Values of one kind are built alike. -/
theorem Value.fit_of_not_mismatched {l r : Value} (h : ¬ l.Mismatched r) : l.Fit r := by
  simp only [Mismatched, not_or, Bool.not_eq_false, sameKind_iff] at h
  obtain ⟨hkind, hunits⟩ := h
  cases l with
  | bool a =>
      cases r with
      | bool b => exact .bools a b
      | _ => cases hkind
  | int x =>
      cases r with
      | int y =>
          obtain ⟨t, a⟩ := x
          obtain ⟨u, b⟩ := y
          obtain rfl : t = u := Kind.int.inj hkind
          exact .words a b
      | _ => cases hkind
  | float x =>
      cases r with
      | float y =>
          cases x with
          | single x =>
              cases y with
              | single y => exact .singles x y
              | double y => cases hkind
          | double x =>
              cases y with
              | single y => cases hkind
              | double y => exact .doubles x y
      | _ => cases hkind
  | string s =>
      cases r with
      | string t => exact .strings s t
      | _ => cases hkind
  | address a =>
      cases r with
      | address b => exact .addresses a b
      | _ => cases hkind
  | unit =>
      cases r with
      | unit => exact absurd ⟨rfl, rfl⟩ hunits
      | _ => cases hkind

theorem BinaryOp.eval_of_mismatched {l r : Value} (op : BinaryOp) (h : l.Mismatched r) :
    op.eval l r = .error (.typeMismatch (.binary op) l.kind r.kind) := by
  have hnot : ¬ l.Fit r := fun hfit => hfit.not_mismatched h
  unfold eval
  split
  · rename_i t a u b
    have hne : u ≠ t := by
      rintro rfl
      exact hnot (.words a b)
    rw [dif_neg hne]
    rfl
  · exact absurd (.singles _ _) hnot
  · exact absurd (.doubles _ _) hnot
  · exact absurd (.strings _ _) hnot
  · exact absurd (.bools _ _) hnot
  · exact absurd (.addresses _ _) hnot
  · rfl

theorem BinaryOp.kind_of_onWords {op : BinaryOp} {t : IntType} {a b : BitVec t.bits} {v : Value}
    (h : op.onWords t a b = .ok v) : v.kind = op.resultKind (.int t) := by
  cases op with
  | quo =>
      simp only [onWords] at h
      split at h <;> cases h
      rfl
  | rem =>
      simp only [onWords] at h
      split at h <;> cases h
      rfl
  | _ =>
      cases h
      rfl

/-- Every operator applies to two words of one type, and only division can fail. -/
theorem BinaryOp.outcome_onWords (op : BinaryOp) {t : IntType} (a b : BitVec t.bits) :
    op.Outcome (.int ⟨t, a⟩) (.int ⟨t, b⟩) (op.onWords t a b) := by
  have hfit : ¬ (Value.int ⟨t, a⟩).Mismatched (.int ⟨t, b⟩) := (Value.Fit.words a b).not_mismatched
  cases h : op.onWords t a b with
  | error fault =>
      obtain ⟨hop, hb, rfl⟩ := (onWords_eq_error_iff a b).mp h
      exact .division hfit ⟨hop, _, _, rfl, rfl, hb⟩
  | ok v =>
      refine .result hfit ?_ rfl (kind_of_onWords h)
      rintro ⟨hop, x, y, -, hy, hzero⟩
      cases hy
      rw [(onWords_eq_error_iff a b).mpr ⟨hop, hzero, rfl⟩] at h
      cases h

/-- Of the operands that fit, all but the words go through an evaluator that follows the table. -/
theorem BinaryOp.outcome_of_follows {op : BinaryOp} {l r : Value} {o : Option Value}
    (hfit : l.Fit r) (hint : l.int? = none) :
    op.Follows l.kind o →
      op.Outcome l r
        (match o with
        | some v => .ok v
        | none => .error (.invalidBinary op l.kind)) := by
  intro h
  have hzero : ¬ op.DividesByZero l r := by
    rintro ⟨-, x, y, rfl, -, -⟩
    cases hint
  cases o with
  | none => exact .invalid hfit.not_mismatched hzero h.isSome_eq.symm
  | some v => exact .result hfit.not_mismatched hzero h.isSome_eq.symm (h.kind_eq v rfl)

/-- **Applying an operator has one of the four outcomes**, under the conditions for it. -/
theorem BinaryOp.outcome_eval (op : BinaryOp) (l r : Value) : op.Outcome l r (op.eval l r) := by
  by_cases hmis : l.Mismatched r
  · rw [eval_of_mismatched op hmis]
    exact .mismatch hmis
  · cases Value.fit_of_not_mismatched hmis with
    | words a b =>
        rw [eval_int]
        exact outcome_onWords op a b
    | singles x y =>
        exact outcome_of_follows (.singles x y) rfl
          (follows_onFloats? .single (fun _ => rfl) op x y)
    | doubles x y =>
        exact outcome_of_follows (.doubles x y) rfl
          (follows_onFloats? .double (fun _ => rfl) op x y)
    | strings s t => exact outcome_of_follows (.strings s t) rfl (follows_onStrings? op s t)
    | bools a b => exact outcome_of_follows (.bools a b) rfl (follows_onEquality? (.inl rfl) op a b)
    | addresses a b =>
        exact outcome_of_follows (.addresses a b) rfl (follows_onEquality? (.inr rfl) op a b)

/-! ## The outcomes exclude each other -/

namespace BinaryOp.Outcome

variable {op : BinaryOp} {l r : Value} {o : Except Fault Value}

theorem eq_typeMismatch_iff (h : op.Outcome l r o) {c : Construct} {j k : Kind} :
    o = .error (.typeMismatch c j k) ↔
      l.Mismatched r ∧ c = .binary op ∧ j = l.kind ∧ k = r.kind := by
  cases h with
  | mismatch h => simp [h, eq_comm]
  | division hfit hzero => simp [hfit]
  | invalid hfit hzero hop => simp [hfit]
  | result hfit hzero hop hv => simp [hfit]

theorem eq_divisionByZero_iff (h : op.Outcome l r o) :
    o = .error .divisionByZero ↔ ¬ l.Mismatched r ∧ op.DividesByZero l r := by
  cases h with
  | mismatch h => simp [h]
  | division hfit hzero => simp [hfit, hzero]
  | invalid hfit hzero hop => simp [hzero]
  | result hfit hzero hop hv => simp [hzero]

theorem eq_invalidBinary_iff (h : op.Outcome l r o) {op' : BinaryOp} {k : Kind} :
    o = .error (.invalidBinary op' k) ↔
      ¬ l.Mismatched r ∧ ¬ op.DividesByZero l r ∧ op.appliesTo l.kind = false ∧
        op' = op ∧ k = l.kind := by
  cases h with
  | mismatch h => simp [h]
  | division hfit hzero => simp [hzero]
  | invalid hfit hzero hop => simp [hfit, hzero, hop, eq_comm]
  | result hfit hzero hop hv => simp [hop]

theorem exists_result (h : op.Outcome l r o) (hfit : ¬ l.Mismatched r)
    (hzero : ¬ op.DividesByZero l r) (hop : op.appliesTo l.kind = true) :
    ∃ v, o = .ok v ∧ v.kind = op.resultKind l.kind := by
  cases h with
  | mismatch h => exact absurd h hfit
  | division _ h => exact absurd h hzero
  | invalid _ _ h =>
      rw [hop] at h
      cases h
  | result _ _ _ hv => exact ⟨_, rfl, hv⟩

end BinaryOp.Outcome

theorem Value.exists_bool_of_kind {v : Value} (h : v.kind = .bool) : ∃ b, v = .bool b := by
  cases v with
  | bool b => exact ⟨b, rfl⟩
  | _ => cases h

/-- **Operators fail exactly in three cases.** Take an operator and two values. The fault is that the
types do not match exactly if the values are of different kinds or both the unit; it names the
operator and the two kinds. Otherwise it is a division by zero exactly if an integer is divided by
zero. Otherwise it is that the operator is invalid exactly if it does not apply to values of this
kind: remainders and operators on bits do not apply to floating-point numbers, only
concatenation and comparisons apply to strings, and only the tests for equality to truth values and
addresses. Otherwise there is a result, a truth value for comparisons and a value of the kind of the
operands for all other operators. Values are of one kind exactly if the names of their kinds are
equal. -/
theorem BinaryOp.eval_fails_exactly (op : BinaryOp) (l r : Value) :
    (∀ c k k', op.eval l r = .error (.typeMismatch c k k') ↔
        l.Mismatched r ∧ c = .binary op ∧ k = l.kind ∧ k' = r.kind) ∧
      (op.eval l r = .error .divisionByZero ↔ ¬ l.Mismatched r ∧ op.DividesByZero l r) ∧
      (∀ op' k, op.eval l r = .error (.invalidBinary op' k) ↔
        ¬ l.Mismatched r ∧ ¬ op.DividesByZero l r ∧ op.appliesTo l.kind = false ∧
          op' = op ∧ k = l.kind) ∧
      (¬ l.Mismatched r → ¬ op.DividesByZero l r → op.appliesTo l.kind = true →
        ∃ v, op.eval l r = .ok v ∧ (op.isComparison = true → ∃ b, v = .bool b) ∧
          (op.isComparison = false → v.sameKind l = true)) ∧
      (l.sameKind r = true ↔ l.kind.name = r.kind.name) := by
  have houtcome := op.outcome_eval l r
  refine ⟨fun c k k' => houtcome.eq_typeMismatch_iff, houtcome.eq_divisionByZero_iff,
    fun op' k => houtcome.eq_invalidBinary_iff, fun hfit hzero hop => ?_, Value.sameKind_iff_name⟩
  obtain ⟨v, hv, hkind⟩ := houtcome.exists_result hfit hzero hop
  refine ⟨v, hv, fun hcompare => ?_, fun hother => ?_⟩
  · rw [resultKind, if_pos hcompare] at hkind
    exact Value.exists_bool_of_kind hkind
  · rw [resultKind, hother] at hkind
    exact Value.sameKind_iff.mpr hkind

end SsaMachine
