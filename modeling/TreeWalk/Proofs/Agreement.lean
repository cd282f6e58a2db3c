/-
# What is done with a text

A text is run, given to the command, or typed at the prompt.  Each time it is read as a whole, and
evaluated if nothing of it was refused.  Whatever a run gives, the command ends with it, and the
prompt answers with it (`front_ends_agree`): the line feed behind a line at the prompt is blank, so
it changes no token (`Reading.ofText_append_feed`).  The command and the prompt may trace what they
read, and the arguments of the command may be read by any reader.
-/
import TreeWalk.Command
import TreeWalk.Proofs.Conversation
import TreeWalk.Proofs.Stream

namespace TreeWalk

/-! ### What is shown -/

/-- What is shown of the value of a text, if it has one. -/
def Result.shown : Option Object → String
  | some o => o.value.render ++ "\n"
  | none => ""

/-- What the prompt says to the outcome of a run. -/
def Prompt.said : Except RunError (Option Object) → String
  | .ok given => Result.shown given
  | .error (.faulty fault) => "ERROR: " ++ fault.message ++ "\n"
  | .error (.refused errors) =>
    Line.ended headings ++ Line.ended (errors.map fun e => "\t" ++ e.message)

/-- The prompt says in eval mode what a run of the text comes to. -/
lemma Prompt.reply_eval (r : Reading) : reply .eval r.program r.errors = said r.run := by
  unfold reply Reading.run
  by_cases h : r.errors = []
  · rw [if_pos h, if_pos h, answer]
    cases Program.eval r.program with
    | error fault => rfl
    | ok given => cases given <;> rfl
  · rw [if_neg h, if_neg h]
    simp [refusal, said, Line.ended]

/-! ### The command -/

namespace Command

/-- How the command ends on a text, by the outcome of a run. -/
lemma evaluate_eq (trace : Bool) (s : String) :
    (∀ given, run s = .ok given →
      (evaluate trace s).code = 0 ∧ (evaluate trace s).out = Result.shown given) ∧
    (∀ e, run s = .error e → (evaluate trace s).code = 1 ∧ (evaluate trace s).out = "") := by
  simp only [evaluate, Session.readProgram_ofText, run, Reading.run]
  split
  · cases Program.eval (Reading.ofText s.toList).program with
    | error fault => exact ⟨fun _ h => (nomatch h), fun _ _ => ⟨rfl, rfl⟩⟩
    | ok given =>
      refine ⟨fun given' h => ?_, fun _ h => (nomatch h)⟩
      obtain rfl : given = given' := Except.ok.inj h
      cases given <;> exact ⟨rfl, rfl⟩
  · exact ⟨fun _ h => (nomatch h), fun _ _ => ⟨rfl, rfl⟩⟩

/-- Do the options name a text to work on, as an argument or as a file that holds it? -/
def Options.names (o : Options) (files : String → Option (List UInt8)) (s : String) : Prop :=
  (o.file = none ∧ o.source = some s) ∨
    ∃ name, o.file = some name ∧ files name = some (Line.encode s)

lemma executeWith_eq {read? : List String → Option Request} {arguments : List String}
    {files : String → Option (List UInt8)} {o : Options} {s : String}
    (h : read? arguments = some (.start o)) (ht : o.tokens = false) (hs : o.names files s)
    (input : List UInt8) : executeWith read? arguments files input = evaluate o.trace s := by
  have hprocess : o.process s = evaluate o.trace s := by
    rw [Options.process, ht]
    rfl
  rw [executeWith, h, fulfil]
  rcases hs with ⟨hfile, hsource⟩ | ⟨name, hfile, hbytes⟩
  · simp only [hfile, hsource, hprocess]
  · simp only [hfile, hbytes, Options.processFile, Option.bind_some, Line.decode?_encode, hprocess]

/-- An argument may hold any text. -/
lemma ofText_source (s : String) : Argument.ofText ("--expr=" ++ s) = .source s := by
  have htext : ("--expr=" ++ s).toList = '-' :: '-' :: ("expr".toList ++ '=' :: s.toList) := by
    rw [String.toList_append]
    rfl
  have hname : ∀ c ∈ "expr".toList, decide (c ≠ '=') := by simp
  rw [Argument.ofText, htext]
  show Argument.ofLong _ = _
  rw [Argument.ofLong, List.takeWhile_append_of_pos hname, List.dropWhile_append_of_pos hname]
  simp

lemma ofArguments?_source (s : String) :
    Request.ofArguments? ["--expr=" ++ s] = some (.start { source := some s }) := by
  rw [Request.ofArguments?, readFrom, ofText_source]
  rfl

end Command

/-! ### The prompt -/

lemma trimmed_append_feed (text : List Char) : trimmed (text ++ ['\n']) = trimmed text := by
  unfold trimmed
  rw [List.dropWhile_append]
  split
  · next h =>
    rw [List.isEmpty_iff] at h
    rw [h]
    rfl
  · rw [List.reverse_append, List.reverse_singleton, List.singleton_append, List.dropWhile_cons]
    rfl

/-- A line feed at the end changes nothing of what a text is read as. -/
lemma Reading.ofText_append_feed (text : List Char) : ofText (text ++ ['\n']) = ofText text := by
  have hblank : Token.stream ['\n'] = [] := Token.stream_of_nil rfl
  rw [ofText, ofText, Token.stream_append_cons (by decide), hblank, List.append_nil]

lemma run_append_feed (s : String) : run (s ++ "\n") = run s := by
  rw [run, run, String.toList_append, ← Reading.ofText_append_feed s.toList]
  rfl

namespace Prompt

lemma leaves_encode_iff (s : String) :
    leaves (Line.encode s) = true ↔ trimmed s.toList = exitLine := by
  rw [leaves, Line.decode?_encode, Option.any_some, decide_eq_true_iff]

/-- The answer to a line, whatever comes behind. -/
lemma sessionOf_cons {s : String} (h : trimmed s.toList ≠ exitLine) (trace : Bool)
    (lines : List (List UInt8)) :
    (sessionOf .eval trace (Line.encode s :: lines)).out =
      ">> " ++ said (run s) ++ (sessionOf .eval trace lines).out := by
  rw [sessionOf, turn_of_decode? (Line.decode?_encode s) (mt (leaves_encode_iff s).mp h),
    reply_eval]
  rfl

lemma session_line {s : String} (hfeed : '\n' ∉ s.toList) (h : trimmed s.toList ≠ exitLine)
    (trace : Bool) (later : List UInt8) :
    (session .eval (Line.encode (s ++ "\n") ++ later) trace).out =
      ">> " ++ said (run s) ++ (session .eval later trace).out := by
  have hline : trimmed (s ++ "\n").toList ≠ exitLine := by
    rw [String.toList_append]
    exact (trimmed_append_feed s.toList).symm ▸ h
  have hsplit : Line.split (Line.encode (s ++ "\n") ++ later) =
      Line.encode (s ++ "\n") :: Line.split later := by
    rw [Line.encode_append_feed, List.append_assoc]
    exact Line.split_line (mt Line.feed_mem_encode_iff.mp hfeed) later
  rw [session, hsplit, sessionOf_cons hline, run_append_feed]
  rfl

lemma session_last_line {s : String} (hne : s ≠ "") (hfeed : '\n' ∉ s.toList)
    (h : trimmed s.toList ≠ exitLine) (trace : Bool) :
    (session .eval (Line.encode s) trace).out = ">> " ++ said (run s) ++ ">> Bye!\n" := by
  have hbytes : Line.encode s ≠ [] := fun hnil => hne (Line.encode_eq_nil_iff.mp hnil)
  rw [session, Line.split_of_notMem hbytes (mt Line.feed_mem_encode_iff.mp hfeed),
    sessionOf_cons h]
  rfl

end Prompt

/-! ### All together -/

open Command

/-- For every text: the command, given arguments that name it for evaluation, succeeds exactly if
a run does, and then shows the value; otherwise it fails and shows nothing.  This is so however the
arguments are read, if only the text comes through.  At the prompt, a line that holds the text is
answered with what the run comes to, behind whatever was said before and in front of whatever is
said behind; and one evaluator may answer all lines.  All of this is so with tracing and without. -/
theorem front_ends_agree (s : String) :
    (∀ (read? : List String → Option Command.Request) arguments files input o,
      read? arguments = some (.start o) → o.tokens = false → o.names files s →
        ((executeWith read? arguments files input).code = 0 ↔ ∃ given, run s = .ok given) ∧
        (∀ given, run s = .ok given →
          (executeWith read? arguments files input).out = Result.shown given) ∧
        ((executeWith read? arguments files input).code = 1 ↔ ∃ e, run s = .error e) ∧
        (∀ e, run s = .error e → (executeWith read? arguments files input).out = "")) ∧
    ('\n' ∉ s.toList → trimmed s.toList ≠ Prompt.exitLine →
      ∀ earlier, Prompt.StaysOpen earlier → ∀ trace, ∃ before,
        (Prompt.session .eval earlier trace).out = before ++ ">> Bye!\n" ∧
        (∀ later, (Prompt.session .eval (earlier ++ (Line.encode (s ++ "\n") ++ later)) trace).out =
          before ++ (">> " ++ Prompt.said (run s) ++ (Prompt.session .eval later trace).out)) ∧
        (s ≠ "" → (Prompt.session .eval (earlier ++ Line.encode s) trace).out =
          before ++ (">> " ++ Prompt.said (run s) ++ ">> Bye!\n"))) ∧
    (∀ ev next input trace, Evaluator.MadeBefore ev next →
      Prompt.sessionIn ev .eval trace (Line.split input) next =
        Prompt.session .eval input trace) := by
  refine ⟨?_, ?_, ?_⟩
  · intro read? arguments files input o hrequest htokens hnames
    rw [executeWith_eq hrequest htokens hnames]
    obtain ⟨hok, herror⟩ := evaluate_eq o.trace s
    cases hrun : run s with
    | ok given =>
      obtain ⟨hcode, hout⟩ := hok given hrun
      rw [hcode, hout]
      simp
    | error e =>
      obtain ⟨hcode, hout⟩ := herror e hrun
      rw [hcode, hout]
      simp
  · intro hfeed htrim earlier hopen trace
    obtain ⟨before, listing, hmore⟩ := hopen.exists_session_append .eval trace
    refine ⟨before, ?_, ?_, ?_⟩
    · rw [← List.append_nil earlier, hmore]
      rfl
    · intro later
      rw [hmore, Prompt.Transcript.behind, Prompt.session_line hfeed htrim]
    · intro hne
      rw [hmore, Prompt.Transcript.behind, Prompt.session_last_line hne hfeed htrim]
  · intro ev next input trace hmade
    exact Prompt.sessionIn_eq hmade.keeps _

/-- A quotient: as an argument of the command, and as a line in front of one that is no text. -/
theorem front_ends_agree_quotient :
    ((execute ["--expr=" ++ "-7 / 2"] (fun _ => none) []).code = 0 ∧
      (execute ["--expr=" ++ "-7 / 2"] (fun _ => none) []).out = "-3\n") ∧
    (Prompt.session .eval (Line.encode ("-7 / 2" ++ "\n") ++ [255])).out = ">> -3\n>> " := by
  have hrun : run "-7 / 2" = .ok (some (.integer (-3))) := by decide +kernel
  obtain ⟨hcommand, hprompt, -⟩ := front_ends_agree "-7 / 2"
  refine ⟨?_, ?_⟩
  · obtain ⟨hcode, hout, -⟩ := hcommand Command.Request.ofArguments? ["--expr=" ++ "-7 / 2"]
      (fun _ => none) [] { source := some "-7 / 2" } (ofArguments?_source _) rfl (Or.inl ⟨rfl, rfl⟩)
    exact ⟨hcode.mpr ⟨_, hrun⟩, (hout _ hrun).trans rfl⟩
  · obtain ⟨before, hempty, hline, -⟩ := hprompt (by decide) (by decide) []
      ⟨⟨[], rfl⟩, Or.inl rfl, List.forall_mem_nil _⟩ false
    obtain rfl : before = "" := (String.append_left_inj ">> Bye!\n").mp (hempty.symm.trans rfl)
    have hout := hline [255]
    rw [hrun] at hout
    exact hout.trans rfl

end TreeWalk
