/-
# Tracing

The tracer goes through all parsing routines, and none of them looks at it: whatever tracer a
routine is given, it ends with the same result at the same place (`Traced.IgnoresTracer`).  So two
sessions that stand at the same place, with the same errors behind them, stay alike whatever tracers
they have (`Session.Alike`), and they read the same programs and report the same errors
(`Session.Alike.replies_eq`).  A tracer that is switched off writes nothing (`Session.Idle`).

The command writes the lines of its tracers to the standard error, and they decide neither the exit
code nor the output (`Command.shown_executeWith_eq`).  This holds for any reader of arguments; one
that takes the option which asks for a listing as asking for nothing else (`Command.TakesTrace`) may
be given the option or not.
-/
import Mathlib.Data.List.Basic
import TreeWalk.Command
import TreeWalk.Proofs.Traced

namespace TreeWalk

/-- What is left of a text when a number of tokens was read from its front. -/
def Token.skipped : Nat → List Char → List Char
  | 0, text => text
  | n + 1, text => skipped n (read text).2

/-! ### Parsers -/

/-- A traced parser does not look at its tracer: with any two tracers it ends in the same way and at
the same place, and a tracer that is switched off is left as it is. -/
structure Traced.IgnoresTracer {α : Type} (p : Traced α) : Prop where
  result : ∀ c t t', (p.run ⟨c, t⟩).1 = (p.run ⟨c, t'⟩).1
  cursor : ∀ c t t', (p.run ⟨c, t⟩).2.cursor = (p.run ⟨c, t'⟩).2.cursor
  disabled : ∀ c t, t.enabled = false → (p.run ⟨c, t⟩).2.tracer = t

lemma Traced.Records.ignoresTracer {α : Type} {p : Traced α} {q : Parser α} (h : Records p q) :
    p.IgnoresTracer where
  result c t t' := by rw [h, h]
  cursor c t t' := by rw [h, h]
  disabled c t hoff := by rw [h, Tracer.wrote_of_disabled hoff]

/-! ### Sessions -/

namespace Session

/-- What can be asked of a session. -/
inductive Step where
  | readProgram
  | errors
  | takeListing
  | trace (on : Bool)

/-- What a session replies. -/
inductive Reply where
  | program (p : Program)
  | errors (errors : List ParseError)
  | listing (lines : List String)
  | done

/-- Is it a program or its errors that a session is asked for? -/
def Step.isReading : Step → Bool
  | readProgram | errors => true
  | takeListing | trace _ => false

/-- Does a reply hold a program, or errors? -/
def Reply.isReading : Reply → Bool
  | program _ | errors _ => true
  | listing _ | done => false

/-- The reply of a session, and the session behind it. -/
def perform (s : Session) : Step → Reply × Session
  | .readProgram => (.program s.readProgram.1, s.readProgram.2)
  | .errors => (.errors s.errors, s)
  | .takeListing => (.listing s.takeListing.1, s.takeListing.2)
  | .trace on => (.done, s.trace on)

/-- The replies of a session to steps one after the other. -/
def replies (s : Session) : List Step → List Reply
  | [] => []
  | step :: steps => (s.perform step).1 :: replies (s.perform step).2 steps

/-- The session behind some steps. -/
def after (s : Session) : List Step → Session
  | [] => s
  | step :: steps => after (s.perform step).2 steps

/-- Two sessions are at the same place and have the same errors. -/
def Alike (s t : Session) : Prop :=
  s.cursor = t.cursor ∧ s.errors = t.errors

variable {s t : Session} {step : Step} {steps : List Step}

/-- Alike sessions reply alike to what is asked about programs. -/
lemma Alike.perform (h : s.Alike t) (hstep : step.isReading) :
    (s.perform step).1 = (t.perform step).1 ∧ (s.perform step).2.Alike (t.perform step).2 := by
  obtain ⟨hcursor, herrors⟩ := h
  cases step with
  | readProgram =>
    simp only [Session.perform, readProgram_eq, Alike, hcursor, herrors, and_self]
  | errors => exact ⟨congrArg Reply.errors herrors, hcursor, herrors⟩
  | takeListing | trace => cases hstep

lemma isReading_perform (s : Session) (step : Step) :
    (s.perform step).1.isReading = step.isReading := by
  cases step <;> rfl

/-- What is asked about tracing leaves a session alike. -/
lemma Alike.perform_of_not (h : s.Alike t) (hstep : ¬ step.isReading) :
    (s.perform step).2.Alike t := by
  cases step with
  | readProgram | errors => exact absurd rfl hstep
  | takeListing | trace => exact h

/-- Steps that ask about tracing may be left out. -/
theorem Alike.replies_eq (h : s.Alike t) :
    (s.replies steps).filter Reply.isReading = t.replies (steps.filter Step.isReading) := by
  induction steps generalizing s t with
  | nil => rfl
  | cons step steps ih =>
    rw [replies, List.filter_cons, isReading_perform, List.filter_cons]
    by_cases hstep : step.isReading
    · obtain ⟨hreply, hnext⟩ := h.perform hstep
      rw [if_pos hstep, if_pos hstep, replies, hreply, ih hnext]
    · rw [if_neg hstep, if_neg hstep, ih (h.perform_of_not hstep)]

/-- Is tracing on behind some steps, from whether it was in front of them? -/
def tracingAfter (on : Bool) : List Step → Bool
  | [] => on
  | .trace on' :: steps => tracingAfter on' steps
  | _ :: steps => tracingAfter on steps

/-- A session that does not trace has no lines. -/
def Idle (s : Session) : Prop :=
  s.tracer.enabled = false → s.tracer.lines = #[]

lemma enabled_readProgram (s : Session) :
    s.readProgram.2.tracer.enabled = s.tracer.enabled := by
  rw [tracer_readProgram, Tracer.enabled_wrote]

lemma Idle.perform (h : s.Idle) (step : Step) : (s.perform step).2.Idle := by
  intro hoff
  cases step with
  | readProgram =>
    have hoff : s.tracer.enabled = false := s.enabled_readProgram.symm.trans hoff
    have htracer : s.readProgram.2.tracer = s.tracer := by
      rw [tracer_readProgram, Tracer.wrote_of_disabled hoff]
    exact (congrArg Tracer.lines htracer).trans (h hoff)
  | errors => exact h hoff
  | takeListing | trace => rfl

lemma Idle.after (h : s.Idle) (steps : List Step) : (s.after steps).Idle := by
  induction steps generalizing s with
  | nil => exact h
  | cons step steps ih => exact ih (h.perform step)

lemma enabled_after (s : Session) (steps : List Step) :
    (s.after steps).tracer.enabled = tracingAfter s.tracer.enabled steps := by
  induction steps generalizing s with
  | nil => rfl
  | cons step steps ih =>
    cases step with
    | readProgram =>
      have hnext := ih s.readProgram.2
      rw [enabled_readProgram] at hnext
      exact hnext
    | errors | takeListing | trace => exact ih _

end Session

/-! ### The command -/

namespace Command

/-- Options that ask for a listing of calls, and else for the same. -/
def Options.traced (o : Options) : Options :=
  { o with trace := true }

/-- A request that asks for a listing of calls, and else for the same. -/
def Request.traced : Request → Request
  | start o => start o.traced
  | request => request

section Arguments

variable {o : Options} {arguments : List String}

lemma Options.withFile?_traced (o : Options) (name : String) :
    o.traced.withFile? name = (o.withFile? name).map traced := by
  rw [withFile?, withFile?, apply_ite (Option.map traced)]
  rfl

lemma Options.withSource?_traced (o : Options) (text : String) :
    o.traced.withSource? text = (o.withSource? text).map traced := by
  rw [withSource?, withSource?, apply_ite (Option.map traced)]
  rfl

lemma Options.withEval?_traced (o : Options) : o.traced.withEval? = o.withEval?.map traced := by
  rw [withEval?, withEval?, apply_ite (Option.map traced)]
  rfl

lemma Options.withTokens?_traced (o : Options) :
    o.traced.withTokens? = o.withTokens?.map traced := by
  rw [withTokens?, withTokens?, apply_ite (Option.map traced)]
  rfl

lemma Options.request?_traced (o : Options) :
    o.traced.request? = o.request?.map Request.traced := by
  rw [request?, request?, apply_ite (Option.map Request.traced)]
  rfl

lemma readPlain_traced (o : Options) (arguments : List String) :
    readPlain o.traced arguments = (readPlain o arguments).map Request.traced := by
  induction arguments generalizing o with
  | nil => exact o.request?_traced
  | cons text rest ih =>
    rw [readPlain, readPlain, o.withFile?_traced]
    cases o.withFile? text with
    | none => rfl
    | some o => exact ih o

/-- Only the option itself asks for a listing of calls. -/
lemma eq_of_ofText_eq_trace {text : String} (h : Argument.ofText text = .trace) :
    text = "--trace" := by
  unfold Argument.ofText at h
  split at h
  · next body hbody =>
    unfold Argument.ofLong at h
    split at h <;> cases h
    next hname hrest =>
    have hbody' : body = "trace".toList := by
      rw [← List.takeWhile_append_dropWhile (p := (· ≠ '=')) (l := body), hrest, List.append_nil,
        ← hname, String.toList_ofList]
    rw [← text.ofList_toList, hbody, hbody']
    rfl
  · unfold Argument.ofShort at h
    split at h <;> cases h
  · cases h

/-- A step of reading arguments that goes alike with a listing and without goes on alike. -/
lemma bind_traced {x : Option Options} {f : Options → Option Request}
    (hf : ∀ o, f o.traced = (f o).map Request.traced) :
    (x.map Options.traced).bind f = (x.bind f).map Request.traced := by
  cases x with
  | none => rfl
  | some o => exact hf o

/-- Arguments that do not ask for a listing of calls are read alike behind options that do and
behind those that do not. -/
lemma readFrom_traced (o : Options) (h : "--trace" ∉ arguments) :
    readFrom o.traced arguments = (readFrom o arguments).map Request.traced := by
  fun_induction readFrom o arguments with
  | case1 o => exact o.request?_traced
  | case2 o text rest harg =>
    simp only [readFrom.eq_def, harg]
    exact readPlain_traced o rest
  | case3 o text rest harg | case4 o text rest harg | case12 o text rest harg =>
    simp only [readFrom.eq_def, harg]
    rfl
  | case5 o text rest harg ih =>
    simp only [readFrom.eq_def _ (_ :: _), harg, o.withEval?_traced]
    exact bind_traced fun o => ih o (List.not_mem_of_not_mem_cons h)
  | case6 o text rest harg ih =>
    simp only [readFrom.eq_def _ (_ :: _), harg, o.withTokens?_traced]
    exact bind_traced fun o => ih o (List.not_mem_of_not_mem_cons h)
  | case7 o text rest harg ih =>
    exact absurd (List.mem_cons.mpr (.inl (eq_of_ofText_eq_trace harg).symm)) h
  | case8 o text rest value harg ih =>
    simp only [readFrom.eq_def _ (_ :: _), harg, o.withSource?_traced]
    exact bind_traced fun o => ih o (List.not_mem_of_not_mem_cons h)
  | case9 o text harg =>
    simp only [readFrom.eq_def, harg]
    rfl
  | case10 o text harg next rest ih =>
    have hrest : "--trace" ∉ rest := List.not_mem_of_not_mem_cons (List.not_mem_of_not_mem_cons h)
    simp only [readFrom.eq_def _ (_ :: _), harg]
    cases (Argument.ofText next).value? with
    | none => rfl
    | some value =>
      simp only [Option.bind_some, o.withSource?_traced]
      exact bind_traced fun o => ih o hrest
  | case11 o text rest name harg ih =>
    simp only [readFrom.eq_def _ (_ :: _), harg, o.withFile?_traced]
    exact bind_traced fun o => ih o (List.not_mem_of_not_mem_cons h)

end Arguments

/-- The exit code and the output of the command, without what goes to the standard error. -/
def Exit.shown (e : Exit) : Nat × String :=
  (e.code, e.out)

end Command

/-! ### Sessions of the prompt -/

/-- What the prompt says is the same with tracing and without. -/
lemma Prompt.said_trace (mode : Mode) (trace trace' : Bool) (lines : List (List UInt8)) :
    (sessionOf mode trace lines).out = (sessionOf mode trace' lines).out ∧
      (sessionOf mode trace lines).readable = (sessionOf mode trace' lines).readable := by
  induction lines with
  | nil => exact ⟨rfl, rfl⟩
  | cons line lines ih =>
    rw [sessionOf, sessionOf, turn, turn]
    cases Line.decode? line with
    | none => exact ⟨rfl, rfl⟩
    | some text =>
      by_cases h : trimmed text.toList = exitLine
      · simp only [if_pos h, and_self]
      · simp only [if_neg h, Session.readProgram_ofText, ih, and_self]

namespace Command

section Execution

lemma shown_evaluate (trace trace' : Bool) (source : String) :
    (evaluate trace source).shown = (evaluate trace' source).shown := by
  simp only [evaluate, Session.readProgram_ofText]
  split
  · cases Program.eval (Reading.ofText source.toList).program with
    | ok given => cases given <;> rfl
    | error fault => rfl
  · rfl

lemma Options.shown_process_traced (o : Options) (source : String) :
    (o.traced.process source).shown = (o.process source).shown := by
  change (if o.tokens then listTokens source else evaluate true source).shown =
    (if o.tokens then listTokens source else evaluate o.trace source).shown
  rw [apply_ite Exit.shown, apply_ite Exit.shown, shown_evaluate true o.trace]

lemma Options.shown_processFile_traced (o : Options) (name : String)
    (bytes? : Option (List UInt8)) :
    (o.traced.processFile name bytes?).shown = (o.processFile name bytes?).shown := by
  unfold processFile
  cases bytes?.bind Line.decode? with
  | none => rfl
  | some source => exact o.shown_process_traced source

lemma Options.shown_converse (o : Options) (input : List UInt8) :
    (o.converse input).shown =
      (if (Prompt.session o.mode input o.trace).readable then 0 else 1,
        greeting o.mode ++ (Prompt.session o.mode input o.trace).out) := by
  unfold converse
  dsimp only
  split <;> rfl

lemma Options.shown_converse_traced (o : Options) (input : List UInt8) :
    (o.traced.converse input).shown = (o.converse input).shown := by
  obtain ⟨hout, hreadable⟩ := Prompt.said_trace o.mode true o.trace (Line.split input)
  rw [shown_converse, shown_converse, Prompt.session, Prompt.session, ← hout, ← hreadable]
  rfl

variable (files : String → Option (List UInt8)) (input : List UInt8)

lemma shown_fulfil_traced (request? : Option Request) :
    (fulfil files input (request?.map Request.traced)).shown =
      (fulfil files input request?).shown := by
  cases request? with
  | none => rfl
  | some request =>
    cases request with
    | help | version => rfl
    | start o =>
      obtain ⟨file, source, eval, tokens, trace⟩ := o
      cases file with
      | some name => exact Options.shown_processFile_traced _ name (files name)
      | none =>
        cases source with
        | some source => exact Options.shown_process_traced _ source
        | none => exact Options.shown_converse_traced _ input

variable {read? : List String → Option Request}

/-- Two lists of arguments that ask for the same, but for a listing of calls, have the same exit
code and the same output. -/
theorem shown_executeWith_eq {arguments arguments' : List String}
    (h : (read? arguments).map Request.traced = (read? arguments').map Request.traced) :
    (executeWith read? arguments files input).shown =
      (executeWith read? arguments' files input).shown :=
  calc (executeWith read? arguments files input).shown
      = (fulfil files input ((read? arguments).map Request.traced)).shown :=
        (shown_fulfil_traced files input (read? arguments)).symm
    _ = (fulfil files input ((read? arguments').map Request.traced)).shown := by rw [h]
    _ = (executeWith read? arguments' files input).shown :=
        shown_fulfil_traced files input (read? arguments')

/-- A reader of arguments takes the option that asks for a listing as asking for nothing else.  With
the option in front of them, arguments that do not hold it make the request that they make without
it, with the listing added; and if they make none, they make none with it. -/
def TakesTrace (read? : List String → Option Request) : Prop :=
  ∀ arguments, "--trace" ∉ arguments →
    read? ("--trace" :: arguments) = (read? arguments).map Request.traced

lemma takesTrace_ofArguments? : TakesTrace Request.ofArguments? :=
  fun _ h => readFrom_traced {} h

lemma Request.traced_traced (request : Request) :
    request.traced.traced = request.traced := by
  cases request <;> rfl

lemma TakesTrace.map_traced (h : TakesTrace read?) {arguments : List String}
    (htrace : "--trace" ∉ arguments) :
    (read? ("--trace" :: arguments)).map Request.traced =
      (read? arguments).map Request.traced := by
  rw [h arguments htrace, Option.map_map]
  congr 1
  funext request
  exact request.traced_traced

end Execution

end Command

open Command Session in
/-- Tracing decides nothing but which lines are written.  The routines of the grammar do not look at
the tracer.  So a session over any text, with any number of tokens skipped in front, returns the
same programs and reports the same errors when nothing is asked of it that has to do with tracing;
while it does not trace it has no lines to list.  However the arguments of the command are read, it
has the same exit code and the same output for arguments that differ in nothing but whether a
listing is asked for; and so for any arguments without the option that asks for it and with that
option in front, if it is taken as asking for nothing else. -/
theorem tracing_inert :
    (∀ k, Traced.IgnoresTracer (Grammar.statement (.ofDepth k)) ∧
      (∀ level, Traced.IgnoresTracer ((Parts.ofDepth k).expression level)) ∧
      Traced.IgnoresTracer (Parts.ofDepth k).block) ∧
    (∀ (source : String) (n : Nat) (steps : List Step),
      let s := ofText (Token.skipped n source.toList)
      (s.replies steps).filter Reply.isReading = s.replies (steps.filter Step.isReading) ∧
        (tracingAfter false steps = false → (s.after steps).takeListing.1 = [])) ∧
    ∀ (read? : List String → Option Command.Request) (files : String → Option (List UInt8))
      (input : List UInt8),
      (TakesTrace read? → ∀ arguments, "--trace" ∉ arguments →
        (executeWith read? ("--trace" :: arguments) files input).shown =
          (executeWith read? arguments files input).shown) ∧
      ∀ arguments arguments',
        (read? arguments).map Command.Request.traced =
          (read? arguments').map Command.Request.traced →
        (executeWith read? arguments files input).shown =
          (executeWith read? arguments' files input).shown := by
  refine ⟨?_, ?_, ?_⟩
  · intro k
    have hparts := Parts.records_ofDepth k
    exact ⟨(Grammar.statement_records hparts).ignoresTracer,
      fun level => (hparts.expression level).ignoresTracer, hparts.block.ignoresTracer⟩
  · intro source n steps s
    refine ⟨Alike.replies_eq ⟨rfl, rfl⟩, fun hoff => ?_⟩
    have hidle : s.Idle := fun _ => rfl
    have hlines : (s.after steps).tracer.lines = #[] :=
      hidle.after steps ((enabled_after s steps).trans hoff)
    exact congrArg Array.toList hlines
  · intro read? files input
    constructor
    · intro htakes arguments htrace
      exact shown_executeWith_eq files input (htakes.map_traced htrace)
    · intro arguments arguments' h
      exact shown_executeWith_eq files input h

open Command Session in
/-- A session over a text with a refused statement, in front of which a token is skipped, while
tracing is switched on and off; and the option in front of other arguments and behind them. -/
theorem tracing_inert_refused :
    let s := ofText (Token.skipped 1 "; let 5; 1 + 2".toList)
    let steps := [Step.trace true, .readProgram, .errors, .takeListing, .readProgram, .trace false]
    (s.replies steps).filter Reply.isReading =
        s.replies [.readProgram, .errors, .readProgram] ∧
      (s.after [.trace true, .readProgram]).takeListing.1 ≠ [] ∧
      (s.after steps).takeListing.1 = [] ∧
      (execute ["--trace", "--expr", "1 + 2"] (fun _ => none) []).shown = (0, "3\n") ∧
      (execute ["--expr=1 + 2", "--trace"] (fun _ => none) []).shown = (0, "3\n") ∧
      (execute ["--trace", "--expr", "1 + 2"] (fun _ => none) []).err ≠ "" := by
  intro s steps
  obtain ⟨-, hsession, hcommand⟩ := tracing_inert
  obtain ⟨hreplies, hidle⟩ := hsession "; let 5; 1 + 2" 1 steps
  obtain ⟨hfront, hrequest⟩ := hcommand Command.Request.ofArguments? (fun _ => none) []
  have hshown : (execute ["--expr", "1 + 2"] (fun _ => none) []).shown = (0, "3\n") := by
    decide +kernel
  refine ⟨hreplies, by decide +kernel, hidle rfl, ?_, ?_, by decide +kernel⟩
  · exact (hfront takesTrace_ofArguments? _ (by decide)).trans hshown
  · exact (hrequest _ _ (by decide +kernel)).trans hshown

end TreeWalk
