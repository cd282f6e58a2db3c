/-
# Where a return is unwrapped

Evaluation that reaches a `return` ends there, and what it gives is wrapped.  A program takes the
wrapper off again, but one wrapper only.  The operand of a `return` may itself be evaluated up to
a `return`, and then the value is wrapped twice: the value of a program shows a wrapper exactly if
this happens at the `return` that ends the program (`isVisible_iff`).
-/
import Mathlib
import TreeWalk.Run

namespace TreeWalk

/-! ### The return that ends an evaluation -/

mutual

/-- The operand of the `return` that ends the evaluation of an expression, if one does. -/
def Expression.return? : Expression → Option Expression
  | .ifThen c t =>
    match c.eval with
    | .ok v => if Result.holds v then Statement.returnEach? t else none
    | .error _ => none
  | .ifElse c t e =>
    match c.eval with
    | .ok v => if Result.holds v then Statement.returnEach? t else Statement.returnEach? e
    | .error _ => none
  | .block b => Statement.returnEach? b
  | _ => none

/-- The operand of the `return` that ends the evaluation of a statement, if one does. -/
def Statement.return? : Statement → Option Expression
  | .binding _ _ => none
  | .returning e => some e
  | .expression e => e.return?
  | .block b => Statement.returnEach? b

/-- The operand of the `return` that ends the evaluation of statements one after the other, if
one does. -/
def Statement.returnEach? : List Statement → Option Expression
  | [] => none
  | s :: ss =>
    match s.return?, s.eval with
    | none, .ok _ => Statement.returnEach? ss
    | reached, _ => reached

end

/-! ### What the evaluation gives there -/

/-- What gives a result in two steps gives one in each of them. -/
theorem ok_of_bind {α β : Type} {x : Except Fault α} {f : α → Except Fault β} {r : β}
    (h : x >>= f = .ok r) : ∃ a, x = .ok a ∧ f a = .ok r := by
  cases x with
  | error fault => cases h
  | ok a => exact ⟨a, rfl, h⟩

/-- What is given by a `return` with this operand. -/
def Expression.evalReturn (e : Expression) : Result :=
  return some (Result.wrap (← e.eval))

/-- What an evaluation gives that a `return` with the operand `e` ends, or no `return` at all. -/
def Result.EndsAt (x : Result) : Option Expression → Prop
  | some e => x = e.evalReturn
  | none => ∀ v, x = .ok v → Result.stops v = false

theorem Object.isReturn_not (o : Object) : o.not.isReturn = false := by
  rw [Object.not]
  split
  · rfl
  · split <;> rfl

theorem Object.isReturn_of_negate {o r : Object} (h : o.negate = .ok r) : r.isReturn = false := by
  cases o with
  | integer n =>
    obtain ⟨m, -, h⟩ := ok_of_bind h
    cases h
    rfl
  | _ => cases h; rfl

theorem Object.isReturn_of_ofIntegers {op : BinaryOp} {l r : Int64} {o : Object}
    (h : Object.ofIntegers op l r = .ok o) : o.isReturn = false := by
  cases op with
  | greater | less | equal | notEqual => cases h; rfl
  | _ =>
    obtain ⟨n, -, h⟩ := ok_of_bind h
    cases h
    rfl

theorem Object.isReturn_of_combine {op : BinaryOp} {a b o : Object}
    (h : a.combine op b = .ok o) : o.isReturn = false := by
  unfold Object.combine at h
  split at h
  · exact isReturn_of_ofIntegers h
  · split at h <;> cases h <;> rfl

theorem Result.stops_of_unary {op : UnaryOp} {v w : Option Object}
    (h : Result.unary op v = .ok w) : Result.stops w = false := by
  cases v with
  | none => cases op <;> cases h <;> rfl
  | some o =>
    cases op with
    | not =>
      cases h
      exact o.isReturn_not
    | negate =>
      obtain ⟨r, hr, h⟩ := ok_of_bind h
      cases h
      exact Object.isReturn_of_negate hr

theorem Result.stops_of_binary {op : BinaryOp} {v w u : Option Object}
    (h : Result.binary op v w = .ok u) : Result.stops u = false := by
  unfold Result.binary at h
  split at h
  · obtain ⟨r, hr, h⟩ := ok_of_bind h
    cases h
    exact Object.isReturn_of_combine hr
  · cases h; rfl

mutual

theorem Expression.endsAt_return? : ∀ e : Expression, e.eval.EndsAt e.return?
  | .integer _ | .boolean _ | .identifier _ | .function _ _ | .call _ _ => by
    intro v h
    rw [Expression.eval] at h
    cases h
    rfl
  | .unary op e => by
    intro v h
    rw [Expression.eval] at h
    obtain ⟨w, -, h⟩ := ok_of_bind h
    exact Result.stops_of_unary h
  | .binary op l r => by
    intro v h
    rw [Expression.eval] at h
    obtain ⟨a, -, h⟩ := ok_of_bind h
    obtain ⟨b, -, h⟩ := ok_of_bind h
    exact Result.stops_of_binary h
  | .ifThen c t => by
    rw [Expression.return?, Expression.eval]
    cases c.eval with
    | error fault => intro v h; cases h
    | ok v =>
      show Result.EndsAt (if Result.holds v then _ else _) (if Result.holds v then _ else _)
      cases Result.holds v with
      | true => exact Statement.endsAt_returnEach? none rfl t
      | false => intro w h; cases h; rfl
  | .ifElse c t e => by
    rw [Expression.return?, Expression.eval]
    cases c.eval with
    | error fault => intro v h; cases h
    | ok v =>
      show Result.EndsAt (if Result.holds v then _ else _) (if Result.holds v then _ else _)
      cases Result.holds v with
      | true => exact Statement.endsAt_returnEach? none rfl t
      | false => exact Statement.endsAt_returnEach? none rfl e
  | .block b => by
    rw [Expression.return?, Expression.eval]
    exact Statement.endsAt_returnEach? none rfl b

theorem Statement.endsAt_return? : ∀ s : Statement, s.eval.EndsAt s.return?
  | .binding _ _ => by
    intro v h
    rw [Statement.eval] at h
    cases h
    rfl
  | .returning e => by
    rw [Statement.return?, Statement.eval]
    rfl
  | .expression e => by
    rw [Statement.return?, Statement.eval]
    exact e.endsAt_return?
  | .block b => by
    rw [Statement.return?, Statement.eval]
    exact Statement.endsAt_returnEach? none rfl b

theorem Statement.endsAt_returnEach? (last : Option Object) (hl : Result.stops last = false) :
    ∀ ss : List Statement, (Statement.evalEach last ss).EndsAt (Statement.returnEach? ss)
  | [] => by
    intro v h
    rw [Statement.evalEach] at h
    cases h
    exact hl
  | s :: ss => by
    have hs := s.endsAt_return?
    rw [Statement.returnEach?, Statement.evalEach]
    cases hr : s.return? with
    | some e =>
      -- the return of `s` ends the list as well
      rw [hr] at hs
      show (s.eval >>= _) = e.evalReturn
      rw [show s.eval = e.evalReturn from hs, Expression.evalReturn]
      cases e.eval with
      | error fault => rfl
      | ok v => cases v <;> rfl
    | none =>
      rw [hr] at hs
      cases he : s.eval with
      | error fault => intro v h; cases h
      | ok v =>
        have hv := hs v he
        show Result.EndsAt (if Result.stops v then _ else _) _
        rw [hv]
        exact Statement.endsAt_returnEach? v hv ss

end

/-! ### What a program shows -/

/-- Is a value one that a program may give: an integer, a truth value or null? -/
def Value.isVisible : Value → Bool
  | integer _ | boolean _ | null => true
  | returned _ | emptyReturn => false

theorem Object.isVisible_value (o : Object) : o.value.isVisible = !o.isReturn := by
  cases o <;> rfl

/-- Does a `return` end a program whose operand is itself ended by a `return`? -/
def Program.returnsReturn (p : Program) : Bool :=
  ((Statement.returnEach? p).bind Expression.return?).isSome

theorem Result.unwrap_of_not_stops {v : Option Object} (h : Result.stops v = false) :
    Result.unwrap v = v := by
  cases v with
  | none => rfl
  | some o => cases o <;> first | rfl | cases h

theorem Result.unwrap_wrap (v : Option Object) : Result.unwrap (some (Result.wrap v)) = v := by
  cases v <;> rfl

theorem Result.isReturn_wrap (v : Option Object) : (Result.wrap v).isReturn = true := by
  cases v <;> rfl

/-- An object that an expression gives is a return exactly if a `return` ends the evaluation. -/
theorem Expression.isReturn_of_eval {e : Expression} {o : Object} (h : e.eval = .ok (some o)) :
    o.isReturn = e.return?.isSome := by
  have he := e.endsAt_return?
  cases hr : e.return? with
  | none =>
    rw [hr] at he
    exact he _ h
  | some f =>
    rw [hr] at he
    obtain ⟨v, -, hv⟩ := ok_of_bind (h ▸ he).symm
    cases hv
    exact Result.isReturn_wrap v

/-- The value of a program shows a wrapper exactly if a `return` ends the program whose operand is
itself ended by a `return`. -/
theorem Program.isVisible_of_eval {p : Program} {o : Object} (h : Program.eval p = .ok (some o)) :
    o.value.isVisible = !Program.returnsReturn p := by
  obtain ⟨v, hv, h⟩ := ok_of_bind h
  have hu : Result.unwrap v = some o := Except.ok.inj h
  have hp := Statement.endsAt_returnEach? none rfl p
  rw [Object.isVisible_value, Program.returnsReturn]
  congr 1
  cases hr : Statement.returnEach? p with
  | none =>
    rw [hr] at hp
    have hs := hp v hv
    rw [Result.unwrap_of_not_stops hs] at hu
    rw [hu] at hs
    exact hs
  | some e =>
    rw [hr] at hp
    obtain ⟨w, hw, hv⟩ := ok_of_bind (hv ▸ hp).symm
    cases hv
    rw [Result.unwrap_wrap] at hu
    exact Expression.isReturn_of_eval (hu ▸ hw)

/-- A text that runs is read without errors, and its program is evaluated. -/
theorem eval_of_run {source : String} {v : Option Object} (h : run source = .ok v) :
    Program.eval (parse source).1 = .ok v := by
  unfold run Reading.run at h
  split at h
  · cases he : Program.eval (parse source).1 with
    | error fault =>
      rw [show Program.eval (Reading.ofText source.toList).program = _ from he] at h
      cases h
    | ok w =>
      rw [show Program.eval (Reading.ofText source.toList).program = _ from he] at h
      cases h
      rfl
  · cases h

/-- The value that a program gives, or a text that is run, is an integer, a truth value or null,
unless a `return` ends the program whose operand is itself ended by a `return`. -/
theorem isVisible_iff (p : Program) (source : String) (o : Object) :
    (Program.eval p = .ok (some o) →
      (o.value.isVisible = true ↔ ¬ Program.returnsReturn p = true)) ∧
    (run source = .ok (some o) →
      (o.value.isVisible = true ↔ ¬ Program.returnsReturn (parse source).1 = true)) := by
  have shown (p : Program) (h : Program.eval p = .ok (some o)) :
      o.value.isVisible = true ↔ ¬ Program.returnsReturn p = true := by
    rw [Program.isVisible_of_eval h]
    cases Program.returnsReturn p <;> decide
  exact ⟨shown p, fun h => shown _ (eval_of_run h)⟩

theorem isVisible_of_nested_blocks :
    (Program.eval [.block [.block [.returning (.integer 1)], .expression (.integer 2)]] =
        .ok (some (.integer 1)) ∧
      run "\x7b if (true) \x7b return 1; \x7d 2 \x7d" = .ok (some (.integer 1))) ∧
    ((Value.integer 1).isVisible = true ↔ ¬ Program.returnsReturn
      [.block [.block [.returning (.integer 1)], .expression (.integer 2)]] = true) ∧
    ((Value.integer 1).isVisible = true ↔ ¬ Program.returnsReturn
      (parse "\x7b if (true) \x7b return 1; \x7d 2 \x7d").1 = true) :=
  (fun h => ⟨h, (isVisible_iff _ "" _).1 h.1, (isVisible_iff [] _ _).2 h.2⟩) ⟨by cbv, by cbv⟩

/-- The outer `return` wraps what the inner one has wrapped already, and the program takes one
wrapper off. -/
theorem wrapped_of_run :
    run "return \x7b return 1; \x7d;" = .ok (some (.returned (.integer 1))) ∧
      (Object.returned (.integer 1)).value.isVisible = false := by
  exact ⟨by cbv, rfl⟩

end TreeWalk
