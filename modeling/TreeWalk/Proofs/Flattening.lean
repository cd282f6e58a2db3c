/-
# Blocks in lists of statements

A block that stands as a statement in a list may be opened: its statements, in its place, are
evaluated as the block was.  For the value of a list is that of the last statement, or that of the
first one which is a return, and neither cares where blocks begin and end.  So a block that is not
empty may be opened at any place in a program (`Program.Context.eval_fill_block`), and with all of
them opened a list has become one list without blocks around its statements
(`Statement.joinedEach`).

An empty block stays what it is.  It gives nothing, whatever was given in front of it, and that no
list without a statement does.
-/
import TreeWalk.Proofs.Context
import TreeWalk.Proofs.Unwinding

namespace TreeWalk

namespace Statement

variable {last : Option Object} {b ss : List Statement}

/-! ### One block -/

/-- Statements in a row, as long as nothing stops in front of them. -/
lemma evalEach_append (h : Result.stops last = false) (ss behind : List Statement) :
    evalEach last (ss ++ behind) = (do
      let given ← evalEach last ss
      if Result.stops given then return given else evalEach given behind) := by
  induction ss generalizing last with
  | nil =>
    rw [List.nil_append, evalEach]
    show _ = if Result.stops last then (return last : Result) else evalEach last behind
    rw [h]
    rfl
  | cons s ss ih =>
    rw [List.cons_append, evalEach, evalEach]
    cases s.eval with
    | error fault => rfl
    | ok given =>
      show (if Result.stops given then (return given : Result) else evalEach given (ss ++ behind)) =
        ((if Result.stops given then (return given : Result) else evalEach given ss) >>= _)
      cases hstops : Result.stops given with
      | true =>
        show (return given : Result) = if Result.stops given then _ else _
        rw [hstops]
        rfl
      | false => exact ih hstops

/-- A list with a statement does not depend on what was given in front of it. -/
lemma evalEach_of_ne_nil (h : ss ≠ []) (last last' : Option Object) :
    evalEach last ss = evalEach last' ss := by
  cases ss with
  | nil => exact absurd rfl h
  | cons s ss => rw [evalEach, evalEach]

/-- A block that is not empty is evaluated as its statements are in its place. -/
lemma evalEach_cons_block (hb : b ≠ []) (last : Option Object) (behind : List Statement) :
    evalEach last (.block b :: behind) = evalEach last (b ++ behind) := by
  have hne : b ++ behind ≠ [] := List.append_ne_nil_of_left_ne_nil hb behind
  rw [evalEach_of_ne_nil hne last none, evalEach_append rfl, evalEach, Statement.eval]

/-- A block may be exchanged for its statements, if there are any. -/
lemma interchangeable_block (hb : b ≠ []) : Interchangeable [.block b] b := by
  intro last behind
  exact evalEach_cons_block hb last behind

/-! ### All blocks of a list -/

mutual

/-- The statements that a statement consists of: those of a block, with the blocks among them
opened, or the statement itself. -/
def joined : Statement → List Statement
  | .block body => if body.isEmpty then [.block body] else joinedEach body
  | s => [s]

/-- A list of statements with all blocks opened that stand as statements in it. -/
def joinedEach : List Statement → List Statement
  | [] => []
  | s :: ss => s.joined ++ joinedEach ss

end

mutual

theorem evalEach_joined : ∀ (s : Statement) (last : Option Object) (behind : List Statement),
    evalEach last (s.joined ++ behind) = evalEach last (s :: behind)
  | .block body, last, behind => by
    rw [joined]
    split
    · rfl
    · next hbody =>
      have hne : body ≠ [] := fun h => hbody (by rw [h]; rfl)
      rw [evalEach_joinedEach body last behind, evalEach_cons_block hne]
  | .binding .., _, _ | .returning .., _, _ | .expression .., _, _ => by
    simp only [joined, List.singleton_append]

theorem evalEach_joinedEach :
    ∀ (ss : List Statement) (last : Option Object) (behind : List Statement),
      evalEach last (joinedEach ss ++ behind) = evalEach last (ss ++ behind)
  | [], _, _ => by rw [joinedEach]
  | s :: ss, last, behind => by
    rw [joinedEach, List.append_assoc, evalEach_joined s, List.cons_append, evalEach, evalEach]
    simp only [evalEach_joinedEach ss]

end

/-! ### Returns in a list -/

/-- A return ends the list that it stands in. -/
lemma evalEach_returning (last : Option Object) (e : Expression) (behind : List Statement) :
    evalEach last (.returning e :: behind) = e.evalReturn := by
  rw [evalEach, Statement.eval, Expression.evalReturn]
  cases e.eval with
  | error fault => rfl
  | ok v => cases v <;> rfl

/-- Some statements are evaluated, and none of them stops the list. -/
def PassesBy (ss : List Statement) : Prop :=
  ∃ v, evalEach none ss = .ok v ∧ Result.stops v = false

/-- What is given behind statements that do not stop the list. -/
lemma PassesBy.evalEach_append {before : List Statement} (h : PassesBy before)
    {behind : List Statement} (hne : behind ≠ []) :
    evalEach none (before ++ behind) = evalEach none behind := by
  obtain ⟨v, hv, hstops⟩ := h
  rw [Statement.evalEach_append rfl, hv]
  show (if Result.stops v then (return v : Result) else evalEach v behind) = _
  rw [hstops]
  exact evalEach_of_ne_nil hne v none

end Statement

/-- The program takes off the wrapper that its return puts on. -/
lemma Expression.unwrap_evalReturn (e : Expression) :
    (do return Result.unwrap (← e.evalReturn)) = e.eval := by
  rw [evalReturn]
  cases e.eval with
  | error fault => rfl
  | ok v => exact congrArg Except.ok (Result.unwrap_wrap v)

namespace Program

open Statement

variable {before behind : List Statement} {e : Expression}

/-- A program with all blocks opened that stand as statements in its list gives what it gave. -/
lemma eval_joinedEach (p : Program) : Program.eval (joinedEach p) = Program.eval p := by
  have h := evalEach_joinedEach p none []
  rw [List.append_nil, List.append_nil] at h
  rw [Program.eval, Program.eval, h]

/-- A return in the list of a program ends it, if nothing does so in front. -/
lemma eval_returning (h : PassesBy before) :
    Program.eval (before ++ .returning e :: behind) = e.eval := by
  rw [Program.eval, h.evalEach_append (List.cons_ne_nil _ _), evalEach_returning,
    e.unwrap_evalReturn]

/-- A block that is not empty may be opened at any place in a program, whatever the program gives:
a value, nothing or a fault.  With all blocks opened that stand in the list of the program, and in
those of such blocks, it is one list; and a return among them ends the program as it ends that
list. -/
theorem eval_fill_block (C : Program.Context) {b : List Statement} (hb : b ≠ []) (p : Program) :
    Program.eval (C.fill [.block b]) = Program.eval (C.fill b) ∧
      Program.eval (joinedEach p) = Program.eval p ∧
      ∀ before e behind, joinedEach p = before ++ .returning e :: behind → PassesBy before →
        Program.eval p = e.eval := by
  refine ⟨C.eval_fill (interchangeable_block hb), eval_joinedEach p, ?_⟩
  intro before e behind hp hbefore
  rw [← eval_joinedEach p, hp, eval_returning hbefore]

/-- A block in a branch, and a return inside two blocks. -/
theorem eval_fill_block_in_branch :
    let C : Program.Context := .inside [.expression (.integer 0)] (.expression
      (.consequence (.boolean true) (.here [] [.expression (.integer 3)]) none)) []
    let b : List Statement := [.expression (.integer 1), .returning (.integer 2)]
    let p : Program := [.block [.expression (.integer 5), .block [.returning (.integer 6)]],
      .expression (.integer 7)]
    b ≠ [] ∧ Program.eval (C.fill b) = .ok (some (.integer 2)) ∧
      Program.eval (C.fill [.block b]) = .ok (some (.integer 2)) ∧
      joinedEach p = [.expression (.integer 5)] ++ .returning (.integer 6) ::
        [.expression (.integer 7)] ∧
      PassesBy [.expression (.integer 5)] ∧ Program.eval p = .ok (some (.integer 6)) := by
  intro C b p
  have hb : b ≠ [] := List.cons_ne_nil _ _
  have hopened : Program.eval (C.fill b) = .ok (some (.integer 2)) := by cbv
  have hjoined : joinedEach p = [.expression (.integer 5)] ++ .returning (.integer 6) ::
      [.expression (.integer 7)] := by cbv
  have hbefore : PassesBy [.expression (.integer 5)] := ⟨_, rfl, rfl⟩
  obtain ⟨hfill, -, hreturn⟩ := eval_fill_block C hb p
  exact ⟨hb, hopened, hfill.trans hopened, hjoined, hbefore, hreturn _ _ _ hjoined hbefore⟩

/-- A block without a statement may not be left out. -/
example : Program.eval [.expression (.integer 1), .block []] = .ok none := by cbv

end Program
end TreeWalk
