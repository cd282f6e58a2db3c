/-
# Returns inside operands

A `return` that evaluation reaches gives its value in a wrapper, and what lies around it passes the
wrapper on: lists of statements, blocks and the branches of conditionals.  So the program ends there
with that value.

An operator and a condition do not pass it on.  They take the wrapper for an operand that is neither
an integer nor one of the objects that are kept, and evaluation goes on behind them.  Which value
was carried makes no difference any more (`Result.Settles`).  A further `return` around the first
one passes on what it was given, in a wrapper more, and the program takes off one only.

Hence a return unwinds the program, whatever it carries, exactly if it stands in no operand, no
condition and no other return (`Program.Context.unwinds_iff`).
-/
import TreeWalk.Proofs.Flattening

namespace TreeWalk

/-! ### Where a hole is -/

mutual

/-- Does evaluation reach the hole? -/
def Expression.Context.Reached : Expression.Context → Prop
  | .unary _ C | .left _ C _ | .condition C _ _ => C.Reached
  | .right _ left C => (∃ v, left.eval = .ok v) ∧ C.Reached
  | .consequence condition C _ =>
    (∃ v, condition.eval = .ok v ∧ Result.holds v = true) ∧ C.Reached
  | .alternative condition _ C =>
    (∃ v, condition.eval = .ok v ∧ Result.holds v = false) ∧ C.Reached
  | .block C => C.Reached
  | .function _ _ | .callee _ _ | .argument _ _ _ _ => False

/-- Does evaluation reach the hole? -/
def Statement.Context.Reached : Statement.Context → Prop
  | .binding _ _ => False
  | .returning C | .expression C => C.Reached
  | .block C => C.Reached

/-- Does evaluation reach the hole? -/
def Program.Context.Reached : Program.Context → Prop
  | .here before _ => Statement.PassesBy before
  | .inside before C _ => Statement.PassesBy before ∧ C.Reached

end

mutual

/-- Is the hole in an operand of an operator, or in a condition? -/
def Expression.Context.inOperand : Expression.Context → Bool
  | .unary _ _ | .left _ _ _ | .right _ _ _ | .condition _ _ _ => true
  | .consequence _ C _ | .alternative _ _ C | .block C | .function _ C => C.inOperand
  | .callee C _ | .argument _ _ C _ => C.inOperand

/-- Is the hole in an operand of an operator, or in a condition? -/
def Statement.Context.inOperand : Statement.Context → Bool
  | .binding _ C | .returning C | .expression C => C.inOperand
  | .block C => C.inOperand

/-- Is the hole in an operand of an operator, or in a condition? -/
def Program.Context.inOperand : Program.Context → Bool
  | .here _ _ => false
  | .inside _ C _ => C.inOperand

end

mutual

/-- The number of returns that the hole is in. -/
def Expression.Context.returns : Expression.Context → Nat
  | .unary _ C | .left _ C _ | .right _ _ C | .condition C _ _ => C.returns
  | .consequence _ C _ | .alternative _ _ C | .block C | .function _ C => C.returns
  | .callee C _ | .argument _ _ C _ => C.returns

/-- The number of returns that the hole is in. -/
def Statement.Context.returns : Statement.Context → Nat
  | .binding _ C | .expression C => C.returns
  | .returning C => C.returns + 1
  | .block C => C.returns

/-- The number of returns that the hole is in. -/
def Program.Context.returns : Program.Context → Nat
  | .here _ _ => 0
  | .inside _ C _ => C.returns

end

/-! ### Returns as operands -/

section Operand

variable {o a b : Object}

lemma Object.shared?_of_isReturn (h : o.isReturn = true) : o.shared? = none := by
  cases o with
  | returned | emptyReturn => rfl
  | integer | boolean | null => cases h

lemma Object.same_of_isReturn (h : a.isReturn = true ∨ b.isReturn = true) : a.same b = false := by
  unfold same
  rcases h with h | h
  · rw [shared?_of_isReturn h]
  · rw [shared?_of_isReturn h]
    cases a.shared? <;> rfl

lemma Object.holds_of_isReturn (h : o.isReturn = true) : o.holds = true := by
  rw [holds, same_of_isReturn (.inl h), same_of_isReturn (.inl h)]
  rfl

/-- What an operator gives in front of a return. -/
def UnaryOp.ofReturn : UnaryOp → Object
  | .not => .truth false
  | .negate => .nothing

/-- What an operator gives if one of its operands is a return. -/
def BinaryOp.ofReturn : BinaryOp → Object
  | .equal => .truth false
  | .notEqual => .truth true
  | _ => .nothing

lemma Result.unary_of_isReturn (op : UnaryOp) (h : o.isReturn = true) :
    unary op (some o) = .ok (some op.ofReturn) := by
  cases op with
  | not =>
    have hnot : o.not = .truth false := by
      rw [Object.not, Object.same_of_isReturn (.inl h), Object.same_of_isReturn (.inl h),
        Object.same_of_isReturn (.inl h)]
      rfl
    exact congrArg (fun o => Except.ok (some o)) hnot
  | negate =>
    cases o with
    | returned | emptyReturn => rfl
    | integer | boolean | null => cases h

lemma Object.combine_of_isReturn (op : BinaryOp) (h : a.isReturn = true ∨ b.isReturn = true) :
    a.combine op b = .ok op.ofReturn := by
  unfold combine
  split
  · rcases h with h | h <;> cases h
  · rw [same_of_isReturn h]
    cases op <;> rfl

/-- An operator of which an operand is a return gives nothing only if the other one does. -/
lemma Result.binary_of_isReturn_left (op : BinaryOp) (h : o.isReturn = true)
    (v : Option Object) : binary op (some o) v = .ok (v.map fun _ => op.ofReturn) := by
  cases v with
  | none => rfl
  | some b => rw [binary, Object.combine_of_isReturn op (.inl h)]; rfl

lemma Result.binary_of_isReturn_right (op : BinaryOp) (h : o.isReturn = true)
    (v : Option Object) : binary op v (some o) = .ok (v.map fun _ => op.ofReturn) := by
  cases v with
  | none => rfl
  | some a => rw [binary, Object.combine_of_isReturn op (.inr h)]; rfl

end Operand

/-! ### What becomes of a return -/

namespace Result

/-- What was given, in one wrapper of a return and some more. -/
def wrapped : Nat → Option Object → Object
  | 0, v => wrap v
  | n + 1, v => .returned (wrapped n v)

lemma isReturn_wrapped (n : Nat) (v : Option Object) : (wrapped n v).isReturn = true := by
  cases n with
  | zero => exact isReturn_wrap v
  | succ n => rfl

/-- What surrounds a return passes on what it carries, with some wrappers more; `F e` is what is
given if the return has the operand `e`. -/
def PassesOn (n : Nat) (F : Expression → Result) : Prop :=
  ∀ e, F e = e.eval >>= fun v => .ok (some (wrapped n v))

/-- What surrounds a return gives the same, whatever the return carries. -/
def Settles (F : Expression → Result) : Prop :=
  ∃ r, ∀ e v, e.eval = .ok v → F e = r

/-- What becomes of a return, from whether it is in an operand and the number of returns that it
is in. -/
def Treats (operand : Bool) (n : Nat) (F : Expression → Result) : Prop :=
  if operand then Settles F else PassesOn n F

variable {operand : Bool} {n : Nat} {F : Expression → Result} {G : Option Object → Result}

lemma Treats.passesOn (h : Treats false n F) : PassesOn n F := h

lemma Settles.bind (h : Settles F) : Settles fun e => F e >>= G := by
  obtain ⟨r, hr⟩ := h
  exact ⟨r >>= G, fun e v hv => congrArg (· >>= G) (hr e v hv)⟩

/-- What takes all returns for the same settles what is given. -/
lemma Treats.settles (h : Treats operand n F) {r : Result}
    (hG : ∀ o : Object, o.isReturn = true → G (some o) = r) : Settles fun e => F e >>= G := by
  cases operand with
  | true => exact Settles.bind h
  | false =>
    refine ⟨r, fun e v hv => ?_⟩
    show F e >>= G = r
    rw [h.passesOn e, hv]
    exact hG _ (isReturn_wrapped n v)

/-- What stops at a return passes on what it is given. -/
lemma Treats.stop (h : Treats operand n F)
    (hG : ∀ o : Object, o.isReturn = true → G (some o) = .ok (some o)) :
    Treats operand n fun e => F e >>= G := by
  cases operand with
  | true => exact Settles.bind h
  | false =>
    intro e
    show F e >>= G = _
    rw [h.passesOn e]
    cases e.eval with
    | error fault => rfl
    | ok v => exact hG _ (isReturn_wrapped n v)

/-- Another return adds a wrapper. -/
lemma Treats.wrap (h : Treats operand n F) :
    Treats operand (n + 1) fun e => F e >>= fun v => .ok (some (wrap v)) := by
  cases operand with
  | true => exact Settles.bind h
  | false =>
    intro e
    show (F e >>= fun v => .ok (some (Result.wrap v))) = _
    rw [h.passesOn e]
    cases e.eval <;> rfl

end Result

open Result

mutual

/-- What an expression makes of a return inside it. -/
theorem Expression.Context.treats : ∀ C : Expression.Context, C.Reached →
    Treats C.inOperand C.returns fun e => (C.fill [.returning e]).eval
  | .unary op C, h => by
    simp only [Expression.Context.fill, Expression.eval]
    exact (C.treats h).settles fun o ho => unary_of_isReturn op ho
  | .left op C right, h => by
    simp only [Expression.Context.fill, Expression.eval]
    refine (C.treats h).settles (r := right.eval >>= fun v => .ok (v.map fun _ => op.ofReturn)) ?_
    intro o ho
    exact congrArg (right.eval >>= ·) (funext (binary_of_isReturn_left op ho))
  | .right op left C, ⟨⟨v, hv⟩, h⟩ => by
    simp only [Expression.Context.fill, Expression.eval, hv]
    exact (C.treats h).settles fun o ho => binary_of_isReturn_right op ho v
  | .condition C consequence alternative?, h => by
    simp only [Expression.Context.fill, Expression.eval_conditional]
    refine (C.treats h).settles (r := Statement.evalEach none consequence) ?_
    intro o ho
    exact if_pos (Object.holds_of_isReturn ho)
  | .consequence condition C alternative?, ⟨⟨v, hv, hholds⟩, h⟩ => by
    simp only [Expression.Context.fill, Expression.eval_conditional_of_holds hv hholds]
    exact C.treats h
  | .alternative condition consequence C, ⟨⟨v, hv, hholds⟩, h⟩ => by
    simp only [Expression.Context.fill, Expression.eval_conditional_of_not_holds hv hholds]
    exact C.treats h
  | .block C, h => by
    simp only [Expression.Context.fill, Expression.eval]
    exact C.treats h

theorem Statement.Context.treats : ∀ C : Statement.Context, C.Reached →
    Treats C.inOperand C.returns fun e => (C.fill [.returning e]).eval
  | .returning C, h => by
    simp only [Statement.Context.fill, Statement.eval]
    exact (C.treats h).wrap
  | .expression C, h => by
    simp only [Statement.Context.fill, Statement.eval]
    exact C.treats h
  | .block C, h => by
    simp only [Statement.Context.fill, Statement.eval]
    exact C.treats h

theorem Program.Context.treats : ∀ C : Program.Context, C.Reached →
    Treats C.inOperand C.returns fun e => Statement.evalEach none (C.fill [.returning e])
  | .here before behind, h => by
    intro e
    simp only [Program.Context.fill, List.singleton_append]
    rw [h.evalEach_append (List.cons_ne_nil _ _), Statement.evalEach_returning]
    rfl
  | .inside before C behind, ⟨hbefore, h⟩ => by
    simp only [Program.Context.fill, hbefore.evalEach_append (List.cons_ne_nil _ _),
      Statement.evalEach]
    exact (C.treats h).stop fun o ho => if_pos ho

end

namespace Program.Context

variable {C : Program.Context}

/-- What the program gives for a return in an operand or a condition does not depend on what the
return carries. -/
lemma settles_eval (h : C.Reached) (hoperand : C.inOperand = true) :
    Settles fun e => Program.eval (C.fill [.returning e]) := by
  have htreats := C.treats h
  rw [hoperand] at htreats
  exact Settles.bind htreats

/-- Elsewhere the program takes off one of the wrappers. -/
lemma eval_fill_returning (h : C.Reached) (hoperand : C.inOperand = false) (e : Expression) :
    Program.eval (C.fill [.returning e]) =
      e.eval >>= fun v => .ok (unwrap (some (wrapped C.returns v))) := by
  have htreats := C.treats h
  rw [hoperand] at htreats
  have hfill : Statement.evalEach none (C.fill [.returning e]) = _ := htreats.passesOn e
  rw [Program.eval, hfill]
  cases e.eval <;> rfl

/-- A return that evaluation reaches unwinds the program, whatever it carries, exactly if it is in
no operand, in no condition and in no other return.  What the program gives for a return in an
operand or a condition is the same, whatever the return carries. -/
theorem unwinds_iff (C : Program.Context) (h : C.Reached) :
    ((∀ e, Program.eval (C.fill [.returning e]) = e.eval) ↔
        C.inOperand = false ∧ C.returns = 0) ∧
      (C.inOperand = true →
        ∃ r, ∀ e v, e.eval = .ok v → Program.eval (C.fill [.returning e]) = r) := by
  refine ⟨⟨fun hall => ?_, fun ⟨hoperand, hreturns⟩ e => ?_⟩, settles_eval h⟩
  · cases hoperand : C.inOperand with
    | true =>
      -- the program cannot give one result for returns of different integers
      obtain ⟨r, hr⟩ := settles_eval h hoperand
      have hone : r = .ok (some (.integer 1)) := (hr (.integer 1) _ rfl).symm.trans (hall _)
      have htwo : r = .ok (some (.integer 2)) := (hr (.integer 2) _ rfl).symm.trans (hall _)
      cases hone.symm.trans htwo
    | false =>
      refine ⟨rfl, ?_⟩
      have hone := (eval_fill_returning h hoperand (.integer 1)).symm.trans (hall _)
      cases hreturns : C.returns with
      | zero => rfl
      | succ n =>
        -- a wrapper is left, and an integer is none
        rw [hreturns] at hone
        have hwrapped : wrapped n (some (.integer 1)) = .integer 1 :=
          Option.some.inj (Except.ok.inj hone)
        have hreturn := isReturn_wrapped n (some (.integer 1))
        rw [hwrapped] at hreturn
        cases hreturn
  · rw [eval_fill_returning h hoperand, hreturns]
    cases e.eval with
    | error fault => rfl
    | ok v => exact congrArg Except.ok (unwrap_wrap v)

/-- A return in a branch, in front of a division by zero, and a return in a condition. -/
theorem unwinds_from_branch :
    let C : Program.Context := .inside [.expression (.integer 1)] (.expression
      (.consequence (.boolean true) (.here [] [.expression (.binary .divide (.integer 1)
        (.integer 0))]) none)) [.expression (.integer 3)]
    let D : Program.Context := .inside [] (.expression
      (.condition (.block (.here [] [])) [.expression (.integer 6)] none)) []
    C.Reached ∧ (C.inOperand = false ∧ C.returns = 0) ∧
      (∀ e, Program.eval (C.fill [.returning e]) = e.eval) ∧
      D.Reached ∧ D.inOperand = true ∧
      (¬ ∀ e, Program.eval (D.fill [.returning e]) = e.eval) ∧
      ∃ r, ∀ e v, e.eval = .ok v → Program.eval (D.fill [.returning e]) = r := by
  intro C D
  have hC : C.Reached := ⟨⟨_, rfl, rfl⟩, ⟨_, rfl, rfl⟩, ⟨_, rfl, rfl⟩⟩
  have hD : D.Reached := ⟨⟨_, rfl, rfl⟩, ⟨_, rfl, rfl⟩⟩
  refine ⟨hC, ⟨rfl, rfl⟩, (unwinds_iff C hC).1.mpr ⟨rfl, rfl⟩, hD, rfl, fun hall => ?_,
    (unwinds_iff D hD).2 rfl⟩
  cases ((unwinds_iff D hD).1.mp hall).1

/-- A sum takes the wrapper of a return for its operand and gives null, and the program does not end
at the return. -/
theorem not_unwinds_from_sum :
    let C : Program.Context := .inside []
      (.expression (.right .add (.integer 1) (.block (.here [] [])))) []
    (parse "1 + \x7b return 5; \x7d").1 = C.fill [.returning (.integer 5)] ∧ C.Reached ∧
      C.inOperand = true ∧ Program.eval (C.fill [.returning (.integer 5)]) = .ok (some .nothing) ∧
      run "1 + \x7b return 5; \x7d" = .ok (some .nothing) ∧
      (Expression.integer 5).eval = .ok (some (.integer 5)) := by
  intro C
  have hreached : C.Reached := ⟨⟨_, rfl, rfl⟩, ⟨_, rfl⟩, ⟨_, rfl, rfl⟩⟩
  exact ⟨by cbv, hreached, rfl, by cbv, by cbv, rfl⟩

end Program.Context

end TreeWalk
