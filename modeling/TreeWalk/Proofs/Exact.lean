/-
# Exact arithmetic

An arithmetic expression is made of integers, `-` in front of an operand, and the operators `+`,
`-`, `*` and `/`.  It has an *exact value*, which may be a number of any size, unless there is a
division by zero in it (`Expression.exactValue?`).

Evaluation carries its operations out one after the other, operands first and from the left
(`Expression.postorder`), on integers of 64 bits.  If the exact value of every part is such an
integer, it gives the exact value; and otherwise it ends with the fault of the first operation that
has no result there (`Expression.eval_arithmetic`).
-/
import Mathlib.Data.Int.Order.Basic
import TreeWalk.Eval

namespace TreeWalk

/-! ### Exact values -/

/-- Is a number an integer of 64 bits? -/
def Integer.InRange (v : Int) : Prop :=
  least ≤ v ∧ v ≤ greatest

/-- Is an operator one of the arithmetic ones? -/
def BinaryOp.isArithmetic : BinaryOp → Bool
  | add | subtract | multiply | divide => true
  | greater | less | equal | notEqual => false

/-- The exact result of an arithmetic operator, if there is one.  A division drops the fraction. -/
def BinaryOp.exactResult? : BinaryOp → Int → Int → Option Int
  | add, a, b => some (a + b)
  | subtract, a, b => some (a - b)
  | multiply, a, b => some (a * b)
  | divide, a, b => if b = 0 then none else some (a.tdiv b)
  | _, _, _ => none

namespace Expression

/-- Is an expression made of integers and arithmetic operators alone? -/
def isArithmetic : Expression → Bool
  | .integer _ => true
  | .unary op e => op = .negate && e.isArithmetic
  | .binary op l r => op.isArithmetic && l.isArithmetic && r.isArithmetic
  | _ => false

/-- The exact value of an arithmetic expression, if it has one. -/
def exactValue? : Expression → Option Int
  | .integer n => some n.toInt
  | .unary .negate e => e.exactValue?.map fun v => -v
  | .binary op l r => do op.exactResult? (← l.exactValue?) (← r.exactValue?)
  | _ => none

/-- The parts of an arithmetic expression in the order of their evaluation: the operands come in
front of their operator, the left one first, and the whole expression comes last. -/
def postorder : Expression → List Expression
  | .unary op e => e.postorder ++ [.unary op e]
  | .binary op l r => l.postorder ++ r.postorder ++ [.binary op l r]
  | e => [e]

/-- Has an expression an exact value, and is that an integer of 64 bits? -/
def Fits (e : Expression) : Prop :=
  ∃ v, e.exactValue? = some v ∧ Integer.InRange v

/-- An operation has no result although its operands have the exact values that the fault names. -/
inductive FailsWith : Expression → Fault → Prop
  /-- The right operand of a division is zero. -/
  | divisionByZero {l r : Expression} {a : Int64} (hl : l.exactValue? = some a.toInt)
    (hr : r.exactValue? = some 0) : FailsWith (.binary .divide l r) (.divisionByZero a)
  /-- The exact result of an operator is out of range. -/
  | overflow {op : BinaryOp} {l r : Expression} {a b : Int64} {v : Int}
    (hl : l.exactValue? = some a.toInt) (hr : r.exactValue? = some b.toInt)
    (hv : op.exactResult? a.toInt b.toInt = some v) (hout : ¬ Integer.InRange v) :
    FailsWith (.binary op l r) (.overflow op a b)
  /-- The least integer has no negative. -/
  | negation {e : Expression} {n : Int64} (he : e.exactValue? = some n.toInt)
    (hn : n.toInt = Integer.least) : FailsWith (.unary .negate e) (.unaryOverflow .negate n)

/-- The first of some expressions that has no exact value in range fails with a fault. -/
def FirstFault (es : List Expression) (f : Fault) : Prop :=
  ∃ before e behind, es = before ++ e :: behind ∧ (∀ d ∈ before, d.Fits) ∧ e.FailsWith f

end Expression

/-! ### One operation -/

section Operation

variable {op : BinaryOp} {n l r : Int64}

lemma Integer.inRange_toInt (n : Int64) : InRange n.toInt :=
  ⟨least_le_toInt n, toInt_le_greatest n⟩

lemma Integer.ofInt?_cases (v : Int) :
    (∃ n : Int64, n.toInt = v ∧ ofInt? v = some n) ∨ (¬ InRange v ∧ ofInt? v = none) := by
  cases h : ofInt? v with
  | some n => exact Or.inl ⟨n, ofInt?_eq_some_iff.mp h, rfl⟩
  | none =>
    refine Or.inr ⟨fun hin => ?_, rfl⟩
    rcases ofInt?_eq_none_iff.mp h with hlt | hlt
    · exact absurd hin.1 (Int.not_le.mpr hlt)
    · exact absurd hin.2 (Int.not_le.mpr hlt)

/-- Only the least integer has a negative out of range. -/
lemma Integer.eq_least_of_neg (h : ¬ InRange (-n.toInt)) : n.toInt = least := by
  have hn := inRange_toInt n
  simp only [InRange, least, greatest] at h hn ⊢
  omega

/-- Only the quotient of the least integer and -1 is out of range. -/
lemma Integer.not_inRange_tdiv_iff (l r : Int64) :
    ¬ InRange (l.toInt.tdiv r.toInt) ↔ l.toInt = least ∧ r.toInt = -1 := by
  have hl := inRange_toInt l
  generalize l.toInt = a at hl ⊢
  generalize r.toInt = b
  simp only [InRange, least, greatest] at hl ⊢
  have habs : (a.tdiv b).natAbs = a.natAbs / b.natAbs := Int.natAbs_tdiv a b
  by_cases hone : b = 1 ∨ b = -1
  · rcases hone with rfl | rfl
    · rw [Int.tdiv_one]
      omega
    · rw [Int.tdiv_neg, Int.tdiv_one]
      omega
  · -- the divisor is zero, or the quotient is at most half of the dividend
    have hhalf : a.natAbs / b.natAbs ≤ a.natAbs / 2 := by
      rcases Nat.eq_zero_or_pos b.natAbs with hzero | hpos
      · rw [hzero, Nat.div_zero]
        exact Nat.zero_le _
      · exact Nat.div_le_div_left (by omega) (by decide)
    omega

lemma Object.negate_cases (n : Int64) :
    (∃ m : Int64, m.toInt = -n.toInt ∧ (integer n).negate = .ok (integer m)) ∨
    (n.toInt = Integer.least ∧ (integer n).negate = .error (.unaryOverflow .negate n)) := by
  rcases Integer.ofInt?_cases (-n.toInt) with ⟨m, hm, hsome⟩ | ⟨hout, hnone⟩
  · exact Or.inl ⟨m, hm, by rw [negate, Arithmetic.negate, hsome]; rfl⟩
  · exact Or.inr ⟨Integer.eq_least_of_neg hout, by rw [negate, Arithmetic.negate, hnone]; rfl⟩

lemma Arithmetic.checked_cases (op : BinaryOp) (l r : Int64) (v : Int) :
    (∃ n : Int64, n.toInt = v ∧ checked op l r v = .ok n) ∨
    (¬ Integer.InRange v ∧ checked op l r v = .error (.overflow op l r)) := by
  rcases Integer.ofInt?_cases v with ⟨n, hn, hsome⟩ | ⟨hout, hnone⟩
  · exact Or.inl ⟨n, hn, by rw [checked, hsome]⟩
  · exact Or.inr ⟨hout, by rw [checked, hnone]⟩

/-- An operator between two integers gives the exact result, or it is out of range, or there is
none because of a division by zero. -/
lemma Object.ofIntegers_cases (hop : op.isArithmetic) (l r : Int64) :
    (∃ n : Int64, op.exactResult? l.toInt r.toInt = some n.toInt ∧
      ofIntegers op l r = .ok (integer n)) ∨
    (∃ v, op.exactResult? l.toInt r.toInt = some v ∧ ¬ Integer.InRange v ∧
      ofIntegers op l r = .error (.overflow op l r)) ∨
    (op = .divide ∧ r.toInt = 0 ∧ ofIntegers op l r = .error (.divisionByZero l)) := by
  have computed {v : Int} (hv : op.exactResult? l.toInt r.toInt = some v)
      (h : ofIntegers op l r = (do return integer (← Arithmetic.checked op l r v))) :
      (∃ n : Int64, op.exactResult? l.toInt r.toInt = some n.toInt ∧
        ofIntegers op l r = .ok (integer n)) ∨
      (∃ v, op.exactResult? l.toInt r.toInt = some v ∧ ¬ Integer.InRange v ∧
        ofIntegers op l r = .error (.overflow op l r)) := by
    rcases Arithmetic.checked_cases op l r v with ⟨n, rfl, hn⟩ | ⟨hout, hfault⟩
    · exact Or.inl ⟨n, hv, by rw [h, hn]; rfl⟩
    · exact Or.inr ⟨v, hv, hout, by rw [h, hfault]; rfl⟩
  cases op with
  | add | subtract | multiply => exact (computed rfl rfl).imp_right Or.inl
  | divide =>
    by_cases hr : r = 0
    · have hfault : ofIntegers .divide l r = .error (.divisionByZero l) := by
        rw [ofIntegers, Arithmetic.divide, if_pos hr]
        rfl
      exact Or.inr (Or.inr ⟨rfl, congrArg Int64.toInt hr, hfault⟩)
    · have hr' : r.toInt ≠ 0 := fun h => hr (Int64.toInt_inj.mp h)
      refine (computed (if_neg hr') ?_).imp_right Or.inl
      rw [ofIntegers, Arithmetic.divide, if_neg hr]
  | greater | less | equal | notEqual => cases hop

end Operation

/-! ### The first fault -/

namespace Expression

variable {e : Expression} {es before behind : List Expression} {f g : Fault}

lemma fits_of_toInt {n : Int64} (h : e.exactValue? = some n.toInt) : e.Fits :=
  ⟨n.toInt, h, Integer.inRange_toInt n⟩

/-- An operation that fails has no exact value in range. -/
lemma FailsWith.not_fits (h : e.FailsWith f) : ¬ e.Fits := by
  rintro ⟨w, hw, hin⟩
  cases h with
  | divisionByZero hl hr =>
    simp [exactValue?, hl, hr, BinaryOp.exactResult?] at hw
  | overflow hl hr hv hout =>
    simp only [exactValue?, hl, hr, Option.bind_eq_bind, Option.bind_some, hv,
      Option.some.injEq] at hw
    exact hout (hw ▸ hin)
  | negation he hn =>
    simp only [exactValue?, he, Option.map_some, hn, Option.some.injEq] at hw
    subst hw
    exact absurd hin.2 (by decide)

lemma FailsWith.unique (hf : e.FailsWith f) (hg : e.FailsWith g) : f = g := by
  have same {d : Expression} {a b : Int64} (ha : d.exactValue? = some a.toInt)
      (hb : d.exactValue? = some b.toInt) : a = b :=
    Int64.toInt_inj.mp (Option.some.inj (ha.symm.trans hb))
  cases hf with
  | divisionByZero hl hr =>
    cases hg with
    | divisionByZero hl' hr' => rw [same hl hl']
    | overflow hl' hr' hv' hout' =>
      -- the exact quotient would be one by zero
      rw [← Option.some.inj (hr.symm.trans hr')] at hv'
      simp [BinaryOp.exactResult?] at hv'
  | overflow hl hr hv hout =>
    cases hg with
    | divisionByZero hl' hr' =>
      rw [← Option.some.inj (hr'.symm.trans hr)] at hv
      simp [BinaryOp.exactResult?] at hv
    | overflow hl' hr' hv' hout' => rw [same hl hl', same hr hr']
  | negation he hn =>
    cases hg with
    | negation he' hn' => rw [same he he']

lemma FirstFault.unique (hf : FirstFault es f) (hg : FirstFault es g) : f = g := by
  obtain ⟨before, d, behind, rfl, hfits, hd⟩ := hf
  obtain ⟨before', d', behind', heq, hfits', hd'⟩ := hg
  rcases List.append_eq_append_iff.mp heq with ⟨m, hm, hbehind⟩ | ⟨m, hm, hbehind⟩
  · cases m with
    | nil =>
      cases List.head_eq_of_cons_eq hbehind
      exact hd.unique hd'
    | cons c m =>
      cases List.head_eq_of_cons_eq hbehind
      exact absurd (hfits' d (by simp [hm])) hd.not_fits
  · cases m with
    | nil =>
      cases List.head_eq_of_cons_eq hbehind
      exact hd.unique hd'
    | cons c m =>
      cases List.head_eq_of_cons_eq hbehind
      exact absurd (hfits d' (by simp [hm])) hd'.not_fits

lemma FirstFault.not_forall_fits (h : FirstFault es f) : ¬ ∀ d ∈ es, d.Fits := by
  obtain ⟨before, d, behind, rfl, -, hd⟩ := h
  intro hfits
  exact hd.not_fits (hfits d (by simp))

lemma FirstFault.append (h : FirstFault es f) (more : List Expression) :
    FirstFault (es ++ more) f := by
  obtain ⟨before, d, behind, rfl, hfits, hd⟩ := h
  exact ⟨before, d, behind ++ more, by simp, hfits, hd⟩

lemma FirstFault.prepend (hbefore : ∀ d ∈ before, d.Fits) (h : FirstFault es f) :
    FirstFault (before ++ es) f := by
  obtain ⟨before', d, behind, rfl, hfits, hd⟩ := h
  refine ⟨before ++ before', d, behind, by simp, fun c hc => ?_, hd⟩
  rcases List.mem_append.mp hc with hc | hc
  · exact hbefore c hc
  · exact hfits c hc

lemma FailsWith.firstFault (h : e.FailsWith f) : FirstFault [e] f :=
  ⟨[], e, [], rfl, List.forall_mem_nil _, h⟩

/-! ### Evaluation -/

/-- What the evaluation of an arithmetic expression gives, as its exact values have it. -/
inductive Gives (e : Expression) : Result → Prop
  | value (n : Int64) (hn : e.exactValue? = some n.toInt) (hfits : ∀ d ∈ e.postorder, d.Fits) :
    Gives e (.ok (some (.integer n)))
  | fault (f : Fault) (h : FirstFault e.postorder f) : Gives e (.error f)

lemma gives_negation {x : Result} (h : e.Gives x) :
    (Expression.unary .negate e).Gives (x >>= Result.unary .negate) := by
  cases h with
  | fault f hf => exact .fault f (hf.append _)
  | value n hn hfits =>
    show Gives _ (do return some (← (Object.integer n).negate))
    rcases Object.negate_cases n with ⟨m, hm, hgiven⟩ | ⟨hleast, hfault⟩
    · rw [hgiven]
      have hexact : (Expression.unary .negate e).exactValue? = some m.toInt := by
        rw [exactValue?, hn, hm]
        rfl
      exact .value m hexact (List.forall_mem_append.mpr
        ⟨hfits, List.forall_mem_singleton.mpr (fits_of_toInt hexact)⟩)
    · rw [hfault]
      exact .fault _ ((FailsWith.negation hn hleast).firstFault.prepend hfits)

lemma gives_operation {op : BinaryOp} {l r : Expression} {x y : Result}
    (hop : op.isArithmetic) (hl : l.Gives x) (hr : r.Gives y) :
    (Expression.binary op l r).Gives (do Result.binary op (← x) (← y)) := by
  cases hl with
  | fault f hf => exact .fault f ((hf.append _).append _)
  | value a ha hlfits =>
    cases hr with
    | fault f hf => exact .fault f ((hf.prepend hlfits).append _)
    | value b hb hrfits =>
      have hfits := List.forall_mem_append.mpr ⟨hlfits, hrfits⟩
      have hexact : (Expression.binary op l r).exactValue? = op.exactResult? a.toInt b.toInt := by
        rw [exactValue?, ha, hb]
        rfl
      show Gives _ (do return some (← Object.ofIntegers op a b))
      rcases Object.ofIntegers_cases hop a b with
        ⟨n, hn, hgiven⟩ | ⟨v, hv, hout, hfault⟩ | ⟨rfl, hzero, hfault⟩
      · rw [hgiven]
        have hn := hexact.trans hn
        exact .value n hn (List.forall_mem_append.mpr
          ⟨hfits, List.forall_mem_singleton.mpr (fits_of_toInt hn)⟩)
      · rw [hfault]
        exact .fault _ ((FailsWith.overflow ha hb hv hout).firstFault.prepend hfits)
      · rw [hfault]
        exact .fault _ ((FailsWith.divisionByZero ha (hzero ▸ hb)).firstFault.prepend hfits)

/-- Evaluation gives what the exact values have it give. -/
theorem gives_eval : ∀ e : Expression, e.isArithmetic → e.Gives e.eval
  | .integer n, _ => by
    rw [eval]
    exact .value n rfl (List.forall_mem_singleton.mpr (fits_of_toInt rfl))
  | .unary op e, h => by
    simp only [isArithmetic, Bool.and_eq_true, decide_eq_true_eq] at h
    obtain ⟨rfl, he⟩ := h
    rw [eval]
    exact gives_negation (gives_eval e he)
  | .binary op l r, h => by
    simp only [isArithmetic, Bool.and_eq_true] at h
    rw [eval]
    exact gives_operation h.1.1 (gives_eval l h.1.2) (gives_eval r h.2)

/-- An arithmetic expression is evaluated to its exact value if every part has one in range, and
otherwise to a fault; and this is the fault of the first operation that fails, which for the range
of a quotient only the least integer and -1 do. -/
theorem eval_arithmetic (h : e.isArithmetic) :
    ((∀ d ∈ e.postorder, d.Fits) →
      ∃ n : Int64, e.exactValue? = some n.toInt ∧ e.eval = .ok (some (.integer n))) ∧
    ((¬ ∀ d ∈ e.postorder, d.Fits) → ∃ f, e.eval = .error f) ∧
    (∀ f, e.eval = .error f ↔ FirstFault e.postorder f) ∧
    (∀ a b : Int64, ∀ v, BinaryOp.divide.exactResult? a.toInt b.toInt = some v →
      (¬ Integer.InRange v ↔ a.toInt = Integer.least ∧ b.toInt = -1)) := by
  have hgives := gives_eval e h
  generalize e.eval = x at hgives
  refine ⟨?_, ?_, ?_, ?_⟩
  · intro hfits
    cases hgives with
    | value n hn _ => exact ⟨n, hn, rfl⟩
    | fault f hf => exact absurd hfits hf.not_forall_fits
  · intro hfits
    cases hgives with
    | value n _ hall => exact absurd hall hfits
    | fault f _ => exact ⟨f, rfl⟩
  · intro f
    constructor
    · rintro rfl
      cases hgives with
      | fault _ hf => exact hf
    · intro hf
      cases hgives with
      | value n _ hall => exact absurd hall hf.not_forall_fits
      | fault g hg => rw [hf.unique hg]
  · intro a b v hv
    simp only [BinaryOp.exactResult?, Option.ite_none_left_eq_some, Option.some.injEq] at hv
    obtain ⟨-, rfl⟩ := hv
    exact Integer.not_inRange_tdiv_iff a b

/-- A division by zero in front of an overflow, and a product in range of a quotient that is rounded
towards zero. -/
theorem eval_arithmetic_two_faults :
    (Expression.binary .add (.binary .divide (.integer 7) (.binary .subtract (.integer 1)
      (.integer 1))) (.unary .negate (.integer (-9223372036854775808)))).eval =
      .error (.divisionByZero 7) ∧
    (Expression.binary .multiply (.binary .divide (.integer (-7)) (.integer 2))
      (.integer 3)).eval = .ok (some (.integer (-9))) := by
  constructor
  · refine ((eval_arithmetic rfl).2.2.1 _).mpr ?_
    refine ⟨[.integer 7, .integer 1, .integer 1, .binary .subtract (.integer 1) (.integer 1)],
      .binary .divide (.integer 7) (.binary .subtract (.integer 1) (.integer 1)),
      [.integer (-9223372036854775808), .unary .negate (.integer (-9223372036854775808)), _],
      rfl, ?_, .divisionByZero rfl rfl⟩
    simp only [List.forall_mem_cons]
    exact ⟨fits_of_toInt rfl, fits_of_toInt rfl, fits_of_toInt rfl, fits_of_toInt (n := 0) rfl,
      List.forall_mem_nil _⟩
  · obtain ⟨n, hn, heval⟩ := (eval_arithmetic (e := .binary .multiply
      (.binary .divide (.integer (-7)) (.integer 2)) (.integer 3)) rfl).1 (by
        simp only [postorder, List.cons_append, List.nil_append, List.forall_mem_cons]
        exact ⟨fits_of_toInt rfl, fits_of_toInt rfl, fits_of_toInt (n := -3) rfl,
          fits_of_toInt rfl, fits_of_toInt (n := -9) rfl, List.forall_mem_nil _⟩)
    have hnine : (-9 : Int64).toInt = n.toInt := Option.some.inj hn
    rw [heval, ← Int64.toInt_inj.mp hnine]

end Expression

end TreeWalk
