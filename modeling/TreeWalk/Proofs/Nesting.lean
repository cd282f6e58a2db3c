/-
# How listings are nested

A listing is read back line by line.  A line that begins a call opens it, and a line that ends one
has to end the call that was opened last and is still open: with the same routine, and with the same
tabulators, which are as many as there are calls open around it.  A listing is *well nested* if
every line fits in this way and no call is open behind it (`Call.WellNested`).

A tracer knows of the open calls only their number.  But each routine that begins ends, whether it
fails or not, so what the routines of a reading tell the tracer is what a forest of calls would tell
it (`Traced.Records`), and the lines of each call leave open what was open in front of them
(`Call.openBehind?_lines`).  So a tracer at rest, which has the level zero and well nested lines, is
at rest again behind each reading (`Tracer.Rests.wrote`), whether statements were refused or not;
and the listings that a session returns are well nested, whatever is done in it
(`Session.listing_wellNested`).
-/
import Mathlib.Tactic.Common
import TreeWalk.Proofs.Tracing

namespace TreeWalk

namespace Call

/-! ### What a line says -/

/-- What a line says of a routine, and the number of tabulators in front of it. -/
inductive Mark where
  /-- A call of the routine begins. -/
  | begins (tabs : Nat) (routine : String)
  /-- A call of the routine ends. -/
  | ends (tabs : Nat) (routine : String)
deriving DecidableEq

/-- What a line says behind its tabulators.  The name of a routine that begins goes up to the next
blank, and that of one that ends to the end of the line. -/
def Mark.ofText? (tabs : Nat) : List Char → Option Mark
  | 'B' :: 'E' :: 'G' :: 'I' :: 'N' :: ' ' :: rest =>
    some (.begins tabs (String.ofList (rest.takeWhile (· ≠ ' '))))
  | 'E' :: 'N' :: 'D' :: ' ' :: rest => some (.ends tabs (String.ofList rest))
  | _ => none

/-- What a line says. -/
def Mark.ofLine? (line : String) : Option Mark :=
  ofText? (line.toList.takeWhile (· = '\t')).length (line.toList.dropWhile (· = '\t'))

/-- A call that a line has begun: the tabulators of that line and the routine. -/
structure Opened where
  tabs : Nat
  routine : String
deriving DecidableEq

/-- The calls that are open behind a line, from those in front of it; the one opened last comes
first.  There are none if the line does not fit. -/
def Mark.openBehind? (opened : List Opened) : Mark → Option (List Opened)
  | begins tabs routine =>
    if tabs = opened.length then some (⟨tabs, routine⟩ :: opened) else none
  | ends tabs routine =>
    match opened with
    | [] => none
    | inner :: outer => if inner = ⟨tabs, routine⟩ ∧ tabs = outer.length then some outer else none

/-- The calls that are open behind some lines. -/
def openBehind? (opened : List Opened) (lines : List String) : Option (List Opened) :=
  lines.foldlM (fun opened line => do (← Mark.ofLine? line).openBehind? opened) opened

/-- Every line fits, and no call is open at the end. -/
def WellNested (lines : List String) : Prop :=
  openBehind? [] lines = some []

instance (lines : List String) : Decidable (WellNested lines) :=
  inferInstanceAs (Decidable (_ = _))

lemma Mark.ofLine?_line (depth : Nat) {text : String} (h : ∀ c ∈ text.toList.head?, c ≠ '\t') :
    ofLine? (line depth text) = ofText? depth text.toList := by
  have htabs : ∀ c ∈ List.replicate depth '\t', decide (c = '\t') = true := by
    intro c hc
    exact decide_eq_true (List.eq_of_mem_replicate hc)
  have htext : text.toList.takeWhile (· = '\t') = [] ∧
      text.toList.dropWhile (· = '\t') = text.toList := by
    cases hchars : text.toList with
    | nil => exact ⟨rfl, rfl⟩
    | cons c rest =>
      have hc : c ≠ '\t' := h c (by rw [hchars]; rfl)
      simp [hc]
  rw [ofLine?, line, String.toList_append, String.toList_ofList,
    List.takeWhile_append_of_pos htabs, List.dropWhile_append_of_pos htabs, htext.1, htext.2,
    List.append_nil, List.length_replicate]

/-- The name of a routine goes up to the blank behind it. -/
lemma takeWhile_name (routine : Routine) (rest : List Char) :
    (routine.name.toList ++ ' ' :: rest).takeWhile (· ≠ ' ') = routine.name.toList := by
  have hname : ∀ c ∈ routine.name.toList, c ≠ ' ' := by
    cases routine <;> simp [Routine.name]
  rw [List.takeWhile_append_of_pos fun c hc => decide_eq_true (hname c hc),
    List.takeWhile_cons_of_neg (by simp), List.append_nil]

lemma Mark.ofLine?_beginText (depth : Nat) (routine : Routine) (token : Token) :
    ofLine? (line depth (routine.beginText token)) = some (.begins depth routine.name) := by
  have htext : (routine.beginText token).toList =
      'B' :: 'E' :: 'G' :: 'I' :: 'N' :: ' ' ::
        (routine.name.toList ++ ' ' :: '(' :: ((quoted token.literal).toList ++ [')'])) := by
    simp [Routine.beginText]
  rw [ofLine?_line depth (by simp [htext]), htext, ofText?, takeWhile_name,
    String.ofList_toList]

lemma Mark.ofLine?_endText (depth : Nat) (routine : Routine) :
    ofLine? (line depth routine.endText) = some (.ends depth routine.name) := by
  rw [ofLine?_line depth (by simp [Routine.endText])]
  simp [Routine.endText, ofText?]

/-! ### The lines of calls -/

section Lines

variable {opened : List Opened} {ls ms : List String}

lemma openBehind?_cons {l : String} {m : Mark} (h : Mark.ofLine? l = some m) :
    openBehind? opened (l :: ls) = (m.openBehind? opened).bind (openBehind? · ls) := by
  rw [openBehind?, List.foldlM_cons, h]
  rfl

lemma openBehind?_append :
    openBehind? opened (ls ++ ms) = (openBehind? opened ls).bind (openBehind? · ms) :=
  List.foldlM_append

mutual

/-- The lines of a call leave open what is open around it. -/
theorem openBehind?_lines (opened : List Opened) :
    ∀ call : Call, openBehind? opened (lines opened.length call) = some opened
  | .mk routine token inner => by
    have hinner := openBehind?_linesOfEach (⟨opened.length, routine.name⟩ :: opened) inner
    rw [List.length_cons] at hinner
    rw [lines, List.cons_append, openBehind?_cons (Mark.ofLine?_beginText ..), Mark.openBehind?,
      if_pos rfl, Option.bind_some, openBehind?_append, hinner, Option.bind_some,
      openBehind?_cons (Mark.ofLine?_endText ..), Mark.openBehind?, if_pos ⟨rfl, rfl⟩]
    rfl

theorem openBehind?_linesOfEach (opened : List Opened) :
    ∀ calls : List Call, openBehind? opened (linesOfEach opened.length calls) = some opened
  | [] => rfl
  | call :: calls => by
    rw [linesOfEach, openBehind?_append, openBehind?_lines opened call, Option.bind_some,
      openBehind?_linesOfEach opened calls]

end

lemma WellNested.append (hls : WellNested ls) (hms : WellNested ms) : WellNested (ls ++ ms) := by
  rw [WellNested, openBehind?_append, hls]
  exact hms

end Lines

end Call

/-! ### The tracer -/

/-- The lines that a tracer writes for some calls leave open what is open around them. -/
lemma Tracer.exists_wrote_eq (t : Tracer) (calls : List Call) (opened : List Call.Opened)
    (h : opened.length = t.level) :
    ∃ ls : List String, t.wrote calls = { t with lines := t.lines ++ ls.toArray } ∧
      Call.openBehind? opened ls = some opened := by
  by_cases henabled : t.enabled = true
  · refine ⟨Call.linesOfEach t.level calls, wrote_of_enabled henabled calls, ?_⟩
    rw [← h]
    exact Call.openBehind?_linesOfEach opened calls
  · refine ⟨[], ?_, rfl⟩
    rw [wrote_of_disabled (eq_false_of_ne_true henabled), Array.append_empty]

/-- Whether a traced parser fails or not, its tracer is at the level that it was at, and the lines
that it wrote leave open what was open in front of them. -/
def Traced.Balances {α : Type} (p : Traced α) : Prop :=
  ∀ c (t : Tracer) (opened : List Call.Opened), opened.length = t.level →
    ∃ ls : List String, (p.run ⟨c, t⟩).2.tracer = { t with lines := t.lines ++ ls.toArray } ∧
      Call.openBehind? opened ls = some opened

lemma Traced.Records.balances {α : Type} {p : Traced α} {q : Parser α} (h : Records p q) :
    p.Balances := by
  intro c t opened hlevel
  rw [h c t]
  exact t.exists_wrote_eq (q c).calls opened hlevel

namespace Tracer

variable {t : Tracer}

/-- No routine is open: the level is zero, and every routine that a line begins is ended by a line
behind it. -/
structure Rests (t : Tracer) : Prop where
  level : t.level = 0
  nested : Call.WellNested t.lines.toList

lemma rests_new (enabled : Bool) : (new enabled).Rests :=
  ⟨rfl, rfl⟩

lemma Rests.take (h : t.Rests) : t.take.2.Rests :=
  ⟨h.level, rfl⟩

/-- What a tracer at rest writes for some calls is well nested by itself. -/
lemma Rests.exists_lines_wrote (h : t.Rests) (calls : List Call) :
    ∃ ls, (t.wrote calls).lines.toList = t.lines.toList ++ ls ∧ Call.WellNested ls := by
  obtain ⟨ls, hwrote, hls⟩ := t.exists_wrote_eq calls [] h.level.symm
  refine ⟨ls, ?_, hls⟩
  rw [hwrote, Array.toList_append]

/-- A tracer at rest that is switched on writes the listing of the calls. -/
lemma Rests.lines_wrote (h : t.Rests) (henabled : t.enabled = true) (calls : List Call) :
    (t.wrote calls).lines.toList = t.lines.toList ++ Call.listing calls := by
  rw [wrote_of_enabled henabled, h.level, Array.toList_append]
  rfl

/-- A tracer at rest is at rest again behind some calls. -/
lemma Rests.wrote (h : t.Rests) (calls : List Call) : (t.wrote calls).Rests := by
  obtain ⟨ls, hlines, hls⟩ := h.exists_lines_wrote calls
  exact ⟨(t.level_wrote calls).trans h.level, hlines ▸ h.nested.append hls⟩

end Tracer

/-! ### Sessions -/

namespace Session

variable {s : Session} {steps : List Step} {ls : List String}

/-- Each step of a session leaves its tracer at rest. -/
lemma rests_perform (h : s.tracer.Rests) (step : Step) : (s.perform step).2.tracer.Rests := by
  cases step with
  | readProgram =>
    have htracer : (s.perform .readProgram).2.tracer = s.tracer.wrote s.cursor.read.calls :=
      s.tracer_readProgram
    rw [htracer]
    exact h.wrote s.cursor.read.calls
  | errors => exact h
  | takeListing => exact h.take
  | trace on => exact Tracer.rests_new on

lemma rests_after (h : s.tracer.Rests) (steps : List Step) : (s.after steps).tracer.Rests := by
  induction steps generalizing s with
  | nil => exact h
  | cons step steps ih => exact ih (rests_perform h step)

/-- A session whose tracer is at rest returns well nested listings only. -/
lemma wellNested_of_mem_replies (h : s.tracer.Rests) (hls : .listing ls ∈ s.replies steps) :
    Call.WellNested ls := by
  induction steps generalizing s with
  | nil => cases hls
  | cons step steps ih =>
    rcases List.mem_cons.mp hls with hreply | hlater
    · cases step with
      | takeListing =>
        obtain rfl : ls = s.tracer.lines.toList := Reply.listing.inj hreply
        exact h.nested
      | readProgram | errors | trace => cases hreply
    · exact ih (rests_perform h step) hlater

open Call in
/-- Wherever the routines of the grammar begin and however they end, they leave the tracer at the
level that it was at, and their lines leave open what was open around them.  So the listings that a
session returns are well nested, over any text, with any number of tokens skipped in front, whatever
was refused and whatever was asked before.  Behind any steps the level of the tracer is zero; so the
lines of the next reading begin without a tabulator, and they are well nested by themselves.  While
tracing is on, they are the lines of all calls that the reading makes. -/
theorem listing_wellNested :
    (∀ k, Traced.Balances (Grammar.statement (.ofDepth k)) ∧
      (∀ level, Traced.Balances ((Parts.ofDepth k).expression level)) ∧
      Traced.Balances (Parts.ofDepth k).block) ∧
    ∀ (source : String) (n : Nat) (steps : List Step),
      let s := ofText (Token.skipped n source.toList)
      (∀ ls, .listing ls ∈ s.replies steps → WellNested ls) ∧
        (s.after steps).tracer.level = 0 ∧
        (∃ ls, (s.after steps).readProgram.2.takeListing.1 = (s.after steps).takeListing.1 ++ ls ∧
          WellNested ls) ∧
        ((s.after steps).tracer.enabled = true →
          (s.after steps).readProgram.2.takeListing.1 =
            (s.after steps).takeListing.1 ++ listing (s.after steps).cursor.read.calls) := by
  constructor
  · intro k
    have hparts := Parts.records_ofDepth k
    exact ⟨(Grammar.statement_records hparts).balances,
      fun level => (hparts.expression level).balances, hparts.block.balances⟩
  intro source n steps s
  have hrests : s.tracer.Rests := Tracer.rests_new false
  have hafter : (s.after steps).tracer.Rests := rests_after hrests steps
  have htracer := (s.after steps).tracer_readProgram
  refine ⟨fun ls h => wellNested_of_mem_replies hrests h, hafter.level, ?_, fun henabled => ?_⟩
  · obtain ⟨ls, hlines, hls⟩ := hafter.exists_lines_wrote (s.after steps).cursor.read.calls
    rw [← htracer] at hlines
    exact ⟨ls, hlines, hls⟩
  · have hlines := hafter.lines_wrote henabled (s.after steps).cursor.read.calls
    rw [← htracer] at hlines
    exact hlines

open Call in
/-- A statement that is refused five calls deep. -/
theorem listing_wellNested_refused :
    let s := ofText (Token.skipped 1 "; -;".toList)
    let ls := ["BEGIN parse_statement (\"-\")", "\tBEGIN parse_expression_statement (\"-\")",
      "\t\tBEGIN parse_expression (\"-\")", "\t\t\tBEGIN parse_unary_expression (\"-\")",
      "\t\t\t\tBEGIN parse_expression (\";\")", "\t\t\t\tEND parse_expression",
      "\t\t\tEND parse_unary_expression", "\t\tEND parse_expression",
      "\tEND parse_expression_statement", "END parse_statement"]
    .listing ls ∈ s.replies [.trace true, .readProgram, .takeListing] ∧ WellNested ls ∧
      (s.after [.trace true, .readProgram]).errors = [.noExpressionAt (.symbol .semicolon)] ∧
      (s.after [.trace true, .readProgram]).tracer.level = 0 ∧
      (s.after [.trace true]).tracer.enabled = true ∧
      ls = listing (s.after [.trace true]).cursor.read.calls := by
  intro s ls
  have hls : (s.after [.trace true, .readProgram]).takeListing.1 = ls := by decide +kernel
  have hmem : .listing ls ∈ s.replies [.trace true, .readProgram, .takeListing] := by
    rw [← hls]
    exact List.mem_cons_of_mem _ (List.mem_cons_of_mem _ (List.mem_singleton.mpr rfl))
  have hnested :=
    (listing_wellNested.2 "; -;" 1 [.trace true, .readProgram, .takeListing]).1 ls hmem
  have hlevel := (listing_wellNested.2 "; -;" 1 [.trace true, .readProgram]).2.1
  have hlisting := (listing_wellNested.2 "; -;" 1 [.trace true]).2.2.2 rfl
  exact ⟨hmem, hnested, by decide +kernel, hlevel, rfl, hls.symm.trans hlisting⟩

end Session
end TreeWalk
