/-
# What is not evaluated

Names, functions and calls are read but not evaluated, and neither is the value of a binding.  They
give nothing, and whatever is inside them leaves no trace in what a program gives, be it a division
by zero or a `return`.  Wherever nothing is given, it makes no difference what gave it.

A *variant* of a program has other expressions in some places (`Expression.Variant`).  The relation
`R` says which expressions may take the place of which; in addition, what is not evaluated may be
replaced by anything of its kind.  If `R` relates only expressions that are evaluated alike, then
variants are evaluated alike (`Program.eval_eq_of_variant`), since evaluating a construct is made
of evaluating its parts.
-/
import Mathlib.Tactic.Common
import TreeWalk.Eval

namespace TreeWalk

/-- Is an expression one that is not evaluated: a name, a function or a call? -/
def Expression.isInert : Expression → Bool
  | .identifier _ | .function _ _ | .call _ _ => true
  | _ => false

/-! ### Variants -/

mutual

/-- Two expressions are the same but for expressions inside them that are not evaluated, or that `R`
relates. -/
inductive Expression.Variant (R : Expression → Expression → Prop) : Expression → Expression → Prop
  /-- One takes the place of the other. -/
  | related {e f : Expression} (h : R e f) : Expression.Variant R e f
  | inert {e f : Expression} (he : e.isInert) (hf : f.isInert) : Expression.Variant R e f
  | integer (n : Int64) : Expression.Variant R (.integer n) (.integer n)
  | boolean (b : Bool) : Expression.Variant R (.boolean b) (.boolean b)
  | unary (op : UnaryOp) {e f : Expression} (h : Expression.Variant R e f) :
    Expression.Variant R (.unary op e) (.unary op f)
  | binary (op : BinaryOp) {e e' f f' : Expression} (h : Expression.Variant R e f)
    (h' : Expression.Variant R e' f') : Expression.Variant R (.binary op e e') (.binary op f f')
  | ifThen {c d : Expression} {t u : List Statement} (hc : Expression.Variant R c d)
    (ht : Statement.VariantEach R t u) : Expression.Variant R (.ifThen c t) (.ifThen d u)
  | ifElse {c d : Expression} {t t' u u' : List Statement} (hc : Expression.Variant R c d)
    (ht : Statement.VariantEach R t u) (ht' : Statement.VariantEach R t' u') :
    Expression.Variant R (.ifElse c t t') (.ifElse d u u')
  | block {b d : List Statement} (h : Statement.VariantEach R b d) :
    Expression.Variant R (.block b) (.block d)

/-- Two statements are the same but for such expressions inside them, and for what is bound by
bindings. -/
inductive Statement.Variant (R : Expression → Expression → Prop) : Statement → Statement → Prop
  | binding (name name' : String) (e f : Expression) :
    Statement.Variant R (.binding name e) (.binding name' f)
  | returning {e f : Expression} (h : Expression.Variant R e f) :
    Statement.Variant R (.returning e) (.returning f)
  | expression {e f : Expression} (h : Expression.Variant R e f) :
    Statement.Variant R (.expression e) (.expression f)
  | block {b d : List Statement} (h : Statement.VariantEach R b d) :
    Statement.Variant R (.block b) (.block d)

/-- The statements of two lists are, one by one, the same in this way. -/
inductive Statement.VariantEach (R : Expression → Expression → Prop) :
    List Statement → List Statement → Prop
  | nil : Statement.VariantEach R [] []
  | cons {s t : Statement} {ss ts : List Statement} (h : Statement.Variant R s t)
    (h' : Statement.VariantEach R ss ts) : Statement.VariantEach R (s :: ss) (t :: ts)

end

variable {R : Expression → Expression → Prop}

/-! ### How variants are evaluated -/

lemma Expression.eval_of_isInert {e : Expression} (h : e.isInert) : e.eval = .ok none := by
  cases e with
  | identifier | function | call => rw [eval]; rfl
  | integer | boolean | unary | binary | ifThen | ifElse | block => cases h

mutual

theorem Expression.Variant.eval_eq (hR : ∀ {e f}, R e f → e.eval = f.eval) {e f : Expression} :
    Expression.Variant R e f → e.eval = f.eval
  | .related h => hR h
  | .inert he hf => by rw [Expression.eval_of_isInert he, Expression.eval_of_isInert hf]
  | .integer _ | .boolean _ => rfl
  | .unary op h => by
    rw [Expression.eval, Expression.eval, h.eval_eq hR]
  | .binary op h h' => by
    rw [Expression.eval, Expression.eval, h.eval_eq hR, h'.eval_eq hR]
  | .ifThen hc ht => by
    rw [Expression.eval, Expression.eval, hc.eval_eq hR, ht.evalEach_eq hR]
  | .ifElse hc ht ht' => by
    rw [Expression.eval, Expression.eval, hc.eval_eq hR, ht.evalEach_eq hR, ht'.evalEach_eq hR]
  | .block h => by
    rw [Expression.eval, Expression.eval, h.evalEach_eq hR]

theorem Statement.Variant.eval_eq (hR : ∀ {e f}, R e f → e.eval = f.eval) {s t : Statement} :
    Statement.Variant R s t → s.eval = t.eval
  | .binding _ _ _ _ => by rw [Statement.eval, Statement.eval]
  | .returning h => by rw [Statement.eval, Statement.eval, h.eval_eq hR]
  | .expression h => by rw [Statement.eval, Statement.eval, h.eval_eq hR]
  | .block h => by rw [Statement.eval, Statement.eval, h.evalEach_eq hR]

theorem Statement.VariantEach.evalEach_eq (hR : ∀ {e f}, R e f → e.eval = f.eval)
    {ss ts : List Statement} : Statement.VariantEach R ss ts →
      ∀ last, Statement.evalEach last ss = Statement.evalEach last ts
  | .nil => fun _ => rfl
  | .cons h h' => fun last => by
    rw [Statement.evalEach, Statement.evalEach, h.eval_eq hR]
    simp only [h'.evalEach_eq hR]

end

/-- Two expressions give nothing, whatever they are. -/
def Expression.GiveNothing (e f : Expression) : Prop :=
  e.eval = .ok none ∧ f.eval = .ok none

lemma Expression.GiveNothing.eval_eq {e f : Expression} (h : e.GiveNothing f) :
    e.eval = f.eval :=
  h.1.trans h.2.symm

namespace Program

variable {p q : Program}

/-- Variants of a program give the same, if the expressions that were exchanged do. -/
lemma eval_eq_of_variantEach (hR : ∀ {e f}, R e f → e.eval = f.eval)
    (h : Statement.VariantEach R p q) : Program.eval p = Program.eval q := by
  rw [Program.eval, Program.eval, h.evalEach_eq hR]

/-- What is not evaluated leaves no trace in what a program gives, a value, nothing or a fault; and
nothing is given in one way only, so that an operand, a condition or the operand of a `return` which
gives nothing may be replaced by any other one that does. -/
theorem eval_eq_of_variant (p q : Program) :
    (Statement.VariantEach Eq p q → Program.eval p = Program.eval q) ∧
      (Statement.VariantEach Expression.GiveNothing p q → Program.eval p = Program.eval q) :=
  ⟨eval_eq_of_variantEach fun h => congrArg Expression.eval h,
    eval_eq_of_variantEach Expression.GiveNothing.eval_eq⟩

/-- Divisions by zero and a return in parts that are not evaluated, and empty blocks in the place of
such parts. -/
theorem eval_eq_of_variant_condition :
    let crash : Expression := .binary .divide (.integer 1) (.integer 0)
    let p : Program := [.binding "x" crash, .expression
      (.ifThen (.call (.identifier "f") [crash])
        [.expression (.unary .not (.function ["x"] [.returning crash]))])]
    let q : Program := [.binding "y" (.boolean true), .expression
      (.ifThen (.identifier "a") [.expression (.unary .not (.identifier "b"))])]
    let q' : Program := [.binding "y" (.boolean true), .expression
      (.ifThen (.block []) [.expression (.unary .not (.unary .negate (.block [])))])]
    Statement.VariantEach Eq p q ∧ Statement.VariantEach Expression.GiveNothing p q' ∧
      Program.eval p = .ok (some (.truth false)) ∧ Program.eval q = .ok (some (.truth false)) ∧
      Program.eval q' = .ok (some (.truth false)) := by
  intro crash p q q'
  have hpq : Statement.VariantEach Eq p q :=
    .cons (.binding ..) (.cons (.expression (.ifThen (.inert rfl rfl)
      (.cons (.expression (.unary .not (.inert rfl rfl))) .nil))) .nil)
  have hpq' : Statement.VariantEach Expression.GiveNothing p q' :=
    .cons (.binding ..) (.cons (.expression (.ifThen (.related ⟨rfl, rfl⟩)
      (.cons (.expression (.unary .not (.related ⟨rfl, rfl⟩))) .nil))) .nil)
  have hp : Program.eval p = .ok (some (.truth false)) := by cbv
  exact ⟨hpq, hpq', hp, ((eval_eq_of_variant p q).1 hpq).symm.trans hp,
    ((eval_eq_of_variant p q').2 hpq').symm.trans hp⟩

end Program

end TreeWalk
