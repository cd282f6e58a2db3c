/-
# Sessions that go on

A session answers its lines one after the other, and an answer depends on its line alone; so do the
lines that a tracer writes for it.  So what is written for lines that leave the session open comes
first, and then what is written for the lines behind them as if they were the whole input; and
behind a line that ends the session nothing is looked at (`Prompt.session_append`).

All lines of a session are answered by one evaluator, with the objects that it keeps.  In
`Prompt.sessionIn` it works in memory, and each answer leaves its objects there.  The invariant is
that the evaluator's own objects lie in front of the next free address; then each line is answered
as `Prompt.session` has it (`Prompt.sessionIn_eq`).
-/
import Mathlib.Data.List.Basic
import TreeWalk.Proofs.Lines
import TreeWalk.Proofs.Memory
import TreeWalk.Proofs.Traced
import TreeWalk.Prompt

namespace TreeWalk
namespace Prompt

variable {mode : Mode} {trace : Bool} {a line : List UInt8} {lines : List (List UInt8)}

/-! ### What a line does -/

/-- Does a line end a session: is it, without the white space at its ends, the word `exit`? -/
def leaves (line : List UInt8) : Bool :=
  (Line.decode? line).any fun text => trimmed text.toList = exitLine

lemma turn_of_leaves (h : leaves line) : turn mode line trace = .exit := by
  obtain ⟨text, htext, hexit⟩ := (Option.any_eq_true _ _).mp h
  rw [turn, htext]
  exact if_pos (of_decide_eq_true hexit)

/-- The lines that a tracer writes for a text. -/
def listingOf (trace : Bool) (text : List Char) : List String :=
  ((Tracer.new trace).wrote (Reading.ofText text).calls).lines.toList

lemma turn_of_decode? {text : String} (htext : Line.decode? line = some text)
    (h : ¬ leaves line) :
    turn mode line trace =
      .answered
        (reply mode (Reading.ofText text.toList).program (Reading.ofText text.toList).errors)
        (listingOf trace text.toList) := by
  rw [leaves, htext, Option.any_some, decide_eq_true_iff] at h
  simp only [turn, htext, if_neg h, Session.readProgram_ofText]
  rfl

/-! ### Line after line -/

/-- A transcript behind an earlier one of a session that goes on. -/
def Transcript.behind (said : String) (listing : List String) (t : Transcript) : Transcript :=
  ⟨said ++ t.out, listing ++ t.listing, t.readable⟩

/-- Behind a line that ends the session nothing counts. -/
lemma sessionOf_append_of_leaves (h : ∃ line ∈ lines, leaves line) (more : List (List UInt8)) :
    sessionOf mode trace (lines ++ more) = sessionOf mode trace lines := by
  induction lines with
  | nil => simp at h
  | cons line lines ih =>
    obtain ⟨exit, hexit, hleaves⟩ := h
    rw [List.cons_append, sessionOf, sessionOf]
    rcases List.mem_cons.mp hexit with rfl | hexit
    · rw [turn_of_leaves hleaves]
    · rw [ih ⟨exit, hexit, hleaves⟩]

/-- What is written for lines that are answered is written whatever comes behind. -/
lemma exists_sessionOf_append
    (h : ∀ line ∈ lines, ∃ text listing, turn mode line trace = .answered text listing) :
    ∃ said listing, ∀ more,
      sessionOf mode trace (lines ++ more) = (sessionOf mode trace more).behind said listing := by
  induction lines with
  | nil => exact ⟨"", [], fun more => by simp [Transcript.behind]⟩
  | cons line lines ih =>
    rw [List.forall_mem_cons] at h
    obtain ⟨text, listing, hturn⟩ := h.1
    obtain ⟨said, listing', hmore⟩ := ih h.2
    refine ⟨invitation ++ text ++ said, listing ++ listing', fun more => ?_⟩
    rw [List.cons_append, sessionOf, hturn, hmore]
    simp [Transcript.behind, String.append_assoc]

/-- Input that leaves a session open: it is text, its last line is complete, and none of its lines
ends the session. -/
structure StaysOpen (input : List UInt8) : Prop where
  valid : ByteArray.IsValidUTF8 ⟨input.toArray⟩
  complete : input = [] ∨ input.getLast? = some Line.feed
  stays : ∀ line ∈ Line.split input, ¬ leaves line

lemma exists_encode (h : ByteArray.IsValidUTF8 ⟨a.toArray⟩) : ∃ s, a = Line.encode s :=
  ⟨String.ofByteArray _ h, rfl⟩

/-- What is written for input that leaves a session open is written whatever comes behind. -/
theorem StaysOpen.exists_session_append (h : StaysOpen a) (mode : Mode) (trace : Bool) :
    ∃ said listing, ∀ b,
      session mode (a ++ b) trace = (session mode b trace).behind said listing := by
  obtain ⟨s, rfl⟩ := exists_encode h.valid
  have hanswered : ∀ line ∈ Line.split (Line.encode s),
      ∃ text listing, turn mode line trace = .answered text listing := by
    intro line hline
    obtain ⟨t, rfl⟩ := Line.exists_encode_of_mem_split hline
    exact ⟨_, _, turn_of_decode? (Line.decode?_encode t) (h.stays _ hline)⟩
  obtain ⟨said, listing, hmore⟩ := exists_sessionOf_append hanswered
  refine ⟨said, listing, fun b => ?_⟩
  rw [session, Line.split_append h.complete, hmore]
  rfl

/-! ### One evaluator for all lines -/

/-- What is shown of what plain evaluation gives. -/
def shown : Plain → String
  | .ok (some v) => v.render ++ "\n"
  | .ok none => ""
  | .error fault => "ERROR: " ++ fault.message ++ "\n"

lemma answer_eval (p : Program) : answer .eval p = shown (Program.plainEval p) := by
  rw [← Program.erase_eval]
  unfold answer
  cases Program.eval p with
  | error fault => rfl
  | ok given => cases given <;> rfl

/-- The answer of an evaluator to a program, and the next free address behind it. -/
def answerIn (ev : Evaluator) (mode : Mode) (p : Program) (next : Nat) : String × Nat :=
  match mode with
  | .echo => (Program.render p ++ "\n", next)
  | .eval =>
    match ev.eval p next with
    | .ok (given, next') => (shown (.ok (given.map Reference.value)), next')
    | .error fault => (shown (.error fault), next)

/-- A session whose lines are all answered by one evaluator, from a free address on. -/
def sessionIn (ev : Evaluator) (mode : Mode) (trace : Bool) :
    List (List UInt8) → Nat → Transcript
  | [], _ => ⟨invitation ++ farewell, [], true⟩
  | line :: lines, next =>
    match Line.decode? line with
    | none => ⟨invitation, [], false⟩
    | some text =>
      if trimmed text.toList = exitLine then
        ⟨invitation ++ farewell, [], true⟩
      else
        let (p, s) := ((Session.ofText text.toList).trace trace).readProgram
        let (text, next') :=
          if s.errors = [] then answerIn ev mode p next else (refusal s.errors, next)
        let t := sessionIn ev mode trace lines next'
        ⟨invitation ++ text ++ t.out, s.takeListing.1 ++ t.listing, t.readable⟩

section Memory

variable {ev : Evaluator} {next : Nat}

/-- An answer is that of plain evaluation, and the free addresses only move on. -/
lemma answerIn_eq (hev : ev.Keeps next) (mode : Mode) (p : Program) :
    (answerIn ev mode p next).1 = answer mode p ∧ next ≤ (answerIn ev mode p next).2 := by
  cases mode with
  | echo => exact ⟨rfl, Nat.le_refl next⟩
  | eval =>
    obtain ⟨herase, hheld⟩ := ev.agrees_eval hev p
    rw [answer_eval, ← herase, answerIn]
    cases heval : ev.eval p next with
    | error fault => exact ⟨rfl, Nat.le_refl next⟩
    | ok given => exact ⟨rfl, (hheld given.1 given.2 heval).1⟩

/-- One evaluator answers all lines as if each of them had an evaluator of its own. -/
theorem sessionIn_eq (hev : ev.Keeps next) (lines : List (List UInt8)) :
    sessionIn ev mode trace lines next = sessionOf mode trace lines := by
  induction lines generalizing next with
  | nil => rfl
  | cons line lines ih =>
    rw [sessionIn, sessionOf, turn]
    cases Line.decode? line with
    | none => rfl
    | some text =>
      dsimp only
      split
      · rfl
      · dsimp only [reply]
        split
        · obtain ⟨htext, hnext⟩ := answerIn_eq hev mode
            ((Session.ofText text.toList).trace trace).readProgram.1
          rw [ih (hev.mono hnext), htext]
        · rw [ih hev]

end Memory

/-! ### The whole input -/

/-- In each mode, with tracing or without, for input `a` that is text and whose last line is
complete, and for any input `b` behind it: a line of `a` that ends the session makes `b` count for
nothing; otherwise `b` is answered as if it stood alone, behind what is written for `a` before its
farewell.  And all lines may be answered by one evaluator that was made before. -/
theorem session_append (mode : Mode) (trace : Bool) {a : List UInt8}
    (hvalid : ByteArray.IsValidUTF8 ⟨a.toArray⟩)
    (hcomplete : a = [] ∨ a.getLast? = some Line.feed) (b : List UInt8) :
    ((∃ line ∈ Line.split a, leaves line) →
      session mode (a ++ b) trace = session mode a trace) ∧
    ((¬ ∃ line ∈ Line.split a, leaves line) → ∃ said,
      (session mode a trace).out = said ++ ">> Bye!\n" ∧ (session mode a trace).readable = true ∧
      (session mode (a ++ b) trace).out = said ++ (session mode b trace).out ∧
      (session mode (a ++ b) trace).readable = (session mode b trace).readable) ∧
    (∀ ev next, Evaluator.MadeBefore ev next →
      sessionIn ev mode trace (Line.split (a ++ b)) next = session mode (a ++ b) trace) := by
  refine ⟨?_, ?_, ?_⟩
  · intro hleaves
    rw [session, session, Line.split_append hcomplete, sessionOf_append_of_leaves hleaves]
  · intro hstays
    have hopen : StaysOpen a :=
      ⟨hvalid, hcomplete, fun line hline hleaves => hstays ⟨line, hline, hleaves⟩⟩
    obtain ⟨said, listing, hmore⟩ := hopen.exists_session_append mode trace
    have hend : session mode a trace = (session mode [] trace).behind said listing := by
      rw [← hmore, List.append_nil]
    refine ⟨said, ?_, ?_, ?_, ?_⟩
    · rw [hend]
      rfl
    · rw [hend]
      rfl
    · rw [hmore]
      rfl
    · rw [hmore]
      rfl
  · intro ev next hmade
    exact sessionIn_eq hmade.keeps _

/-- A line that is answered, and one behind it that is no text. -/
theorem session_append_unreadable :
    (session .eval ([49, 10] ++ [255])).out = ">> 1\n" ++ (session .eval [255]).out ∧
      (session .eval ([49, 10] ++ [255])).readable = false ∧
      ∃ ev, Evaluator.MadeBefore ev 3 ∧
        (sessionIn ev .eval false (Line.split ([49, 10] ++ [255])) 3).out =
          ">> 1\n" ++ (session .eval [255]).out := by
  obtain ⟨-, hstays, hmemory⟩ :=
    session_append .eval false (a := [49, 10]) ⟨['1', '\n'], rfl⟩ (Or.inr rfl) [255]
  obtain ⟨said, hsaid, -, hout, hreadable⟩ := hstays (by decide +kernel)
  have hone : (session .eval [49, 10]).out = ">> 1\n" ++ ">> Bye!\n" := by decide +kernel
  obtain rfl : said = ">> 1\n" := (String.append_left_inj _).mp (hsaid.symm.trans hone)
  refine ⟨hout, hreadable.trans (by decide +kernel), _, ⟨0, 3, rfl, Nat.le_refl 3⟩, ?_⟩
  rw [hmemory _ 3 ⟨0, 3, rfl, Nat.le_refl 3⟩, hout]

end Prompt
end TreeWalk
