/-
# Truth in conditions and negations

What counts as true is told in two places: a conditional asks whether its condition holds, and `!`
tells `true` from `false` and null by itself.  The two agree on everything that an evaluation may
give, nothing and returns included (`Result.unary_not`).  So a condition may be negated if its
branches change places, and negating twice gives the truth value of the operand.

Both go by the identity of objects, and this comes to the same as to go by values: all but `false`
and null count as true (`Expression.holds_of_eval`).
-/
import Mathlib.Tactic.Common
import TreeWalk.Proofs.Structural

namespace TreeWalk

/-- The negation of an object is the truth value of its not holding. -/
lemma Object.not_eq_truth (o : Object) : o.not = .truth (!o.holds) := by
  cases o with
  | boolean b standing => cases b <;> cases standing <;> rfl
  | null standing => cases standing <;> rfl
  | integer | returned | emptyReturn => rfl

namespace Result

/-- The negation of what was given is the truth value of its not holding. -/
lemma unary_not (v : Option Object) : unary .not v = .ok (some (.truth (!holds v))) := by
  cases v with
  | none => rfl
  | some o => exact congrArg (fun o => Except.ok (some o)) o.not_eq_truth

lemma holds_truth (b : Bool) : holds (some (.truth b)) = b := by
  cases b <;> rfl

end Result

namespace Expression

variable {c : Expression} {v : Option Object} {fault : Fault}

lemma eval_not_of_eval (h : c.eval = .ok v) :
    (unary .not c).eval = .ok (some (.truth (!Result.holds v))) := by
  rw [eval, h]
  exact Result.unary_not v

lemma eval_ifElse_of_eval (h : c.eval = .ok v) (t e : List Statement) :
    (ifElse c t e).eval = Statement.evalEach none (if Result.holds v then t else e) := by
  rw [eval, h, apply_ite (Statement.evalEach none)]
  rfl

lemma eval_not_of_error (h : c.eval = .error fault) : (unary .not c).eval = .error fault := by
  rw [eval, h]
  rfl

lemma eval_ifElse_of_error (h : c.eval = .error fault) (t e : List Statement) :
    (ifElse c t e).eval = .error fault := by
  rw [eval, h]
  rfl

/-- What an evaluation gives holds if its value is neither `false` nor null. -/
lemma holds_of_eval (h : c.eval = .ok v) : Result.holds v = Plain.holds (v.map Object.value) := by
  rw [eval_eq_embed] at h
  cases hplain : c.plainEval with
  | error fault => rw [hplain] at h; cases h
  | ok w =>
    rw [hplain] at h
    obtain rfl : w.map Value.object = v := Except.ok.inj h
    rw [Plain.holds_map_object, Option.map_map]
    cases w with
    | none => rfl
    | some w => exact congrArg Plain.holds (congrArg some w.value_object.symm)

/-- A conditional and the one with its condition negated and its branches exchanged give the same,
and so do a double negation and the conditional between the truth values.  For both tell truth by
the value of what they are given. -/
theorem eval_negated (c : Expression) (t e : List Statement) :
    (ifElse (unary .not c) e t).eval = (ifElse c t e).eval ∧
      (unary .not (unary .not c)).eval =
        (ifElse c [.expression (.boolean true)] [.expression (.boolean false)]).eval ∧
      ∀ v, c.eval = .ok v →
        (unary .not c).eval = .ok (some (.truth (!Plain.holds (v.map Object.value)))) ∧
          (ifElse c t e).eval =
            Statement.evalEach none (if Plain.holds (v.map Object.value) then t else e) := by
  cases hc : c.eval with
  | error fault =>
    have hnot := eval_not_of_error hc
    refine ⟨?_, ?_, ?_⟩
    · rw [eval_ifElse_of_error hnot, eval_ifElse_of_error hc]
    · rw [eval_not_of_error hnot, eval_ifElse_of_error hc]
    · rintro v hv
      cases hv
  | ok v =>
    have hnot := eval_not_of_eval hc
    refine ⟨?_, ?_, ?_⟩
    · rw [eval_ifElse_of_eval hnot, eval_ifElse_of_eval hc, Result.holds_truth]
      cases Result.holds v <;> rfl
    · rw [eval_not_of_eval hnot, eval_ifElse_of_eval hc, Result.holds_truth]
      cases Result.holds v <;> rfl
    · rintro w hw
      obtain rfl : v = w := Except.ok.inj hw
      rw [← holds_of_eval hc]
      exact ⟨hnot, eval_ifElse_of_eval hc t e⟩

/-- A condition that gives a return, and one that gives zero. -/
theorem eval_negated_return :
    let c : Expression := .block [.returning (.integer 0)]
    c.eval = .ok (some (.returned (.integer 0))) ∧
      (unary .not c).eval = .ok (some (.truth false)) ∧
      (ifElse (unary .not c) [] [.expression (.integer 1)]).eval = .ok (some (.integer 1)) ∧
      (unary .not (unary .not (.integer 0))).eval = .ok (some (.truth true)) := by
  intro c
  have hc : c.eval = .ok (some (.returned (.integer 0))) := rfl
  have hzero : (ifElse (.integer 0) [.expression (.boolean true)]
      [.expression (.boolean false)]).eval = .ok (some (.truth true)) := rfl
  obtain ⟨hswap, -, htruth⟩ := eval_negated c [.expression (.integer 1)] []
  obtain ⟨hnot, hif⟩ := htruth _ hc
  refine ⟨hc, hnot, hswap.trans (hif.trans ?_), ?_⟩
  · rfl
  · exact (eval_negated (.integer 0) [] []).2.1.trans hzero

end Expression
end TreeWalk
