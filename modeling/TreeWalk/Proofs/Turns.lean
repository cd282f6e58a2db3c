/-
# Reading ends

Nothing bounds the loops and the calls of a reading: the loop over the statements of a program
turns until an end of input stands in front, the loop that goes on behind a refused statement until
it finds where that ends, and the routines call one another as they like.  Here both loops are
counted (`Reading.turns?`, `Cursor.recover?`), and give nothing when the count runs out.

It does not run out, if it is more than the number of tokens.  Each turn takes the token it begins
with, which is no end of input, and so there are no more turns than such tokens in the text, each
of which has a character of its own (`Token.countP_stream_le`).  In each turn either a statement or
an error is added.
-/
import Mathlib.Tactic.Common
import TreeWalk.Proofs.EndOfInput
import TreeWalk.Proofs.Layout
import TreeWalk.Proofs.Routines
import TreeWalk.Proofs.Tracing

namespace TreeWalk

/-! ### The loop behind a refused statement -/

namespace Cursor

/-- The place behind a refused statement, if it is found by looking at no more than `n` tokens. -/
def recover? : Nat → Cursor → Option Cursor
  | 0, _ => none
  | n + 1, c =>
    let opened := c.last.depthBehind c.depth
    if c.last.endsRefused opened then
      some (ended c.last c.rest)
    else
      recover? n { c.next with depth := opened }

variable {c : Cursor} {n : Nat}

/-- The loop passes the tokens that are left, and at the latest it stops at the end behind them. -/
lemma recover?_eq (h : c.rest.length + 1 < n) : c.recover? n = some c.recover := by
  obtain ⟨last, rest, d⟩ := c
  obtain ⟨n, rfl⟩ : ∃ m, n = m + 1 := ⟨n - 1, by omega⟩
  induction rest generalizing last d n with
  | nil =>
    by_cases hends : last.endsRefused (last.depthBehind d)
    · rw [recover?, if_pos hends, recover, behind_of_ends hends]
    · obtain ⟨n, rfl⟩ : ∃ m, n = m + 1 := ⟨n - 1, by simp at h; omega⟩
      rw [recover?, if_neg hends, recover, behind_nil hends]
      rfl
  | cons t rest ih =>
    by_cases hends : last.endsRefused (last.depthBehind d)
    · rw [recover?, if_pos hends, recover, behind_of_ends hends]
    · obtain ⟨n, rfl⟩ : ∃ m, n = m + 1 := ⟨n - 1, by simp at h; omega⟩
      rw [recover?, if_neg hends, recover, behind_cons hends]
      exact ih t _ n (by simpa using h)

end Cursor

/-! ### The loop over the statements -/

namespace Reading

open Cursor

/-- What a turn of the loop gives: a statement, or the error it was refused for. -/
abbrev Turn := Except ParseError Statement

/-- The statement that a turn adds to the program. -/
def Turn.statement? : Turn → Option Statement
  | .ok s => some s
  | .error _ => none

/-- The error that a turn adds to the errors. -/
def Turn.error? : Turn → Option ParseError
  | .ok _ => none
  | .error e => some e

/-- The turns from a place on and the place where they end, if `n` is enough to count the turns and
the tokens that are looked at behind a refused statement. -/
def turns? (p : Parts) : Nat → Cursor → Option (List Turn × Cursor)
  | 0, _ => none
  | n + 1, c =>
    if c.peek = .endOfInput then
      some ([], c)
    else do
      let o := Grammar.statement p c
      let next ← match o.result with
        | .ok _ => some o.cursor
        | .error _ => o.cursor.recover? n
      let (turns, last) ← turns? p n next
      return (o.result :: turns, last)

variable {p : Parts} {c c₁ c₂ c' : Cursor} {k m n : Nat} {s : Statement} {e : ParseError}
  {turns : List Turn} {ss : Program} {es : List ParseError}

lemma turns?_of_end (hc : c.peek = .endOfInput) (hn : 0 < n) : turns? p n c = some ([], c) := by
  obtain ⟨n, rfl⟩ : ∃ m, n = m + 1 := ⟨n - 1, by omega⟩
  rw [turns?, if_pos hc]

lemma turns?_of_ok (hc : c.peek ≠ .endOfInput) (h : (Grammar.statement p).Ends c (.ok s) c₁)
    (hturns : turns? p n c₁ = some (turns, c')) :
    turns? p (n + 1) c = some (.ok s :: turns, c') := by
  obtain ⟨hr, rfl⟩ := h
  simp [turns?, hc, hr, hturns]

lemma turns?_of_error (hc : c.peek ≠ .endOfInput)
    (h : (Grammar.statement p).Ends c (.error e) c₁) (hrecover : c₁.recover? n = some c₂)
    (hturns : turns? p n c₂ = some (turns, c')) :
    turns? p (n + 1) c = some (.error e :: turns, c') := by
  obtain ⟨hr, rfl⟩ := h
  simp [turns?, hc, hr, hrecover, hturns]

lemma length_turns (turns : List Turn) :
    (turns.filterMap Turn.statement?).length + (turns.filterMap Turn.error?).length =
      turns.length := by
  induction turns with
  | nil => rfl
  | cons turn turns ih =>
    cases turn with
    | ok s =>
      have hstatement : Turn.statement? (.ok s) = some s := rfl
      have herror : Turn.error? (.ok s) = none := rfl
      simp only [List.filterMap_cons, hstatement, herror, List.length_cons]
      omega
    | error e =>
      have hstatement : Turn.statement? (.error e) = none := rfl
      have herror : Turn.error? (.error e) = some e := rfl
      simp only [List.filterMap_cons, hstatement, herror, List.length_cons]
      omega

/-- With more to count on than there are tokens, the loop turns until an end of input stands in
front. -/
theorem Visits.exists_turns (h : Visits (.ofDepth k) c ss es c') (hc' : c'.peek = .endOfInput)
    (hk : c.rest.length ≤ k) : ∃ turns,
    (∀ {p n}, p.Same k (.ofDepth k) → c.rest.length + 1 < n →
      turns? p n c = some (turns, c')) ∧
    ss = turns.filterMap Turn.statement? ∧ es = turns.filterMap Turn.error? := by
  induction h with
  | refl c => exact ⟨[], fun _ hn => turns?_of_end hc' (by omega), rfl, rfl⟩
  | @read c c₁ _ s _ _ hne h _ ih =>
    have hlt := (Grammar.statement_sound (Parts.sound_ofDepth k) h).length_lt
    obtain ⟨turns, hturns, rfl, rfl⟩ := ih hc' (by omega)
    refine ⟨.ok s :: turns, fun {p n} hp hn => ?_, rfl, rfl⟩
    obtain ⟨n, rfl⟩ : ∃ m, n = m + 1 := ⟨n - 1, by omega⟩
    exact turns?_of_ok hne ((hp.ends_statement_iff hk).2 h) (hturns hp (by omega))
  | @refused c c₁ _ e _ _ hne h _ ih =>
    have hlt := length_recover_lt hk hne h
    have hlt' := (Grammar.statement_refused (Parts.refused_ofDepth k) hk h).length_lt hne
    obtain ⟨turns, hturns, rfl, rfl⟩ := ih hc' (by omega)
    refine ⟨.error e :: turns, fun {p n} hp hn => ?_, rfl, rfl⟩
    obtain ⟨n, rfl⟩ : ∃ m, n = m + 1 := ⟨n - 1, by omega⟩
    exact turns?_of_error hne ((hp.ends_statement_iff hk).2 h) (recover?_eq (by omega))
      (hturns hp (by omega))

/-! ### Each turn takes a token -/

/-- The number of tokens that are no end of input. -/
def remaining (ts : List Token) : Nat :=
  ts.countP (· ≠ .endOfInput)

/-- Further on, where fewer tokens are left, the next token does not count any more. -/
lemma remaining_lt (hne : c.peek ≠ .endOfInput) (hsuffix : c'.rest <:+ c.rest)
    (hlt : c'.rest.length < c.rest.length) : remaining c'.rest < remaining c.rest := by
  rw [rest_of_peek rfl hne] at hsuffix hlt ⊢
  have htail : c'.rest <:+ c.rest.tail := by
    refine (List.suffix_cons_iff.mp hsuffix).resolve_left fun heq => ?_
    rw [heq] at hlt
    exact Nat.lt_irrefl _ hlt
  have hle : remaining c'.rest ≤ remaining c.rest.tail := htail.sublist.countP_le
  have hcons : remaining (c.peek :: c.rest.tail) = remaining c.rest.tail + 1 :=
    List.countP_cons_of_pos (by simpa using hne)
  omega

theorem Visits.remaining_le (h : Visits (.ofDepth k) c ss es c') (hk : c.rest.length ≤ k) :
    ss.length + es.length + remaining c'.rest ≤ remaining c.rest := by
  induction h with
  | refl c => simp
  | @read c c₁ _ _ _ _ hne h _ ih =>
    have hs := Grammar.statement_sound (Parts.sound_ofDepth k) h
    have hlt := hs.length_lt
    obtain ⟨ts, -, hpass, -⟩ := hs.passes
    have hsuffix : c₁.rest <:+ c.rest := hpass.rest_eq ▸ List.suffix_append _ _
    have hremaining := remaining_lt hne hsuffix hlt
    have hle := ih (by omega)
    rw [List.length_cons]
    omega
  | @refused c c₁ _ _ _ _ hne h _ ih =>
    have hrefuses := Grammar.statement_refused (Parts.refused_ofDepth k) hk h
    have hlt := length_recover_lt hk hne h
    have hsuffix : c₁.recover.rest <:+ c.rest :=
      (behind_suffix _ _ _).trans (Refuses.rest_suffix hrefuses)
    have hremaining := remaining_lt hne hsuffix hlt
    have hle := ih (by omega)
    rw [List.length_cons]
    omega

end Reading

/-! ### Each token has a character -/

namespace Token

variable {t : Token} {ts : List Token} {text : List Char}

/-- The characters that stand for themselves, and not for nothing or for an end of input. -/
def isVisible (c : Char) : Bool :=
  !isBlank c && c ≠ nul

lemma countP_piece_pos (h : t.isWritable) : 1 ≤ t.piece.countP isVisible := by
  obtain ⟨d, ds, hliteral, hblank, -⟩ := exists_first_char h
  have hnul : d ≠ nul := by
    rintro rfl
    exact nul_notMem_literal h (by simp [hliteral])
  rw [piece_of_ne (ne_endOfInput_of_isWritable h), hliteral,
    List.countP_cons_of_pos (by simp [isVisible, hblank, hnul])]
  omega

lemma LaidOut.countP_le (h : LaidOut ts text) (hts : ∀ t ∈ ts, t.MayOccur) :
    ts.countP (· ≠ .endOfInput) ≤ text.countP isVisible := by
  induction h with
  | nil => simp
  | @cons blanks rest t ts hblanks hstop h ih =>
    have hle := ih fun u hu => hts u (List.mem_cons_of_mem t hu)
    rw [List.countP_append, List.countP_append]
    rcases hts t List.mem_cons_self with hwritable | rfl
    · have hpos := countP_piece_pos hwritable
      rw [List.countP_cons_of_pos (by simpa using ne_endOfInput_of_isWritable hwritable)]
      omega
    · rw [List.countP_cons_of_neg (by simp)]
      omega

/-- A text has no more tokens that are no end of input than characters that may belong to one. -/
theorem countP_stream_le (text : List Char) :
    (stream text).countP (· ≠ .endOfInput) ≤ text.countP isVisible :=
  (laidOut_stream text).countP_le fun _ => mayOccur_of_mem_stream

end Token

/-! ### Sessions -/

namespace Session

variable {s : Session}

lemma Alike.refl (s : Session) : s.Alike s :=
  ⟨rfl, rfl⟩

/-- Nothing is read at the end of the input. -/
lemma readProgram_of_end (hs : s.cursor.peek = .endOfInput) :
    s.readProgram.1 = [] ∧ s.readProgram.2.Alike s := by
  have hread : s.cursor.read = ⟨[], [], [], s.cursor⟩ := by
    rw [Cursor.read]
    cases s.cursor.rest.length with
    | zero => rfl
    | succ n => rw [Reading.from, if_pos hs]
  simp [readProgram_eq, hread, Alike]

lemma perform_of_end (hs : s.cursor.peek = .endOfInput) (step : Step) :
    (s.perform step).2.Alike s := by
  cases step with
  | readProgram => exact (readProgram_of_end hs).2
  | errors | takeListing | trace => exact .refl s

lemma after_of_end (hs : s.cursor.peek = .endOfInput) (steps : List Step) :
    (s.after steps).Alike s := by
  induction steps generalizing s with
  | nil => exact .refl s
  | cons step steps ih =>
    obtain ⟨hcursor, herrors⟩ := perform_of_end hs step
    obtain ⟨hcursor', herrors'⟩ := ih (hcursor ▸ hs)
    exact ⟨hcursor'.trans hcursor, herrors'.trans herrors⟩

/-- Over any text, the reading of a program ends: the loop over its statements, the loop behind a
refused statement and the calls of the routines come to a result within twice as many steps as there
are tokens and two more, whatever lies below.  Each turn adds a statement or an error, and there are
no more turns than characters that are no blank and no NUL.  Behind the reading stands an end of
input, so all further readings give nothing and add no error. -/
theorem readProgram_ends (source : String) :
    let s : Session := ofText source.toList
    let s' : Session := s.readProgram.2
    (∃ turns : List Reading.Turn,
      (∀ (strays : Strays) (r : Routines) (n : Nat), 2 * s.cursor.rest.length + 2 ≤ n →
        Reading.turns? (r.unfolded strays n).parts n s.cursor = some (turns, s'.cursor)) ∧
      s.readProgram.1 = turns.filterMap Reading.Turn.statement? ∧
      s'.errors = turns.filterMap Reading.Turn.error? ∧
      s.readProgram.1.length + s'.errors.length = turns.length) ∧
    s.readProgram.1.length + s'.errors.length ≤ source.toList.countP Token.isVisible ∧
    s'.cursor.peek = .endOfInput ∧
    ∀ steps, (s'.after steps).readProgram.1 = [] ∧
      (s'.after steps).readProgram.2.errors = s'.errors := by
  intro s s'
  have hk : s.cursor.rest.length ≤ s.cursor.rest.length := Nat.le_refl _
  obtain ⟨c, hvisits, hend⟩ := Reading.exists_visits hk hk
  obtain rfl : s'.cursor = c := s.cursor_readProgram.trans (hvisits.cursor_eq hend hk hk)
  have hread : s.readProgram.1 = s.cursor.read.program := s.program_readProgram
  have hrefused : s'.errors = s.cursor.read.errors := s.errors_readProgram
  refine ⟨?_, ?_, hend, fun steps => ?_⟩
  · obtain ⟨turns, hturns, hstatements, hcauses⟩ := hvisits.exists_turns hend hk
    have hprogram : s.readProgram.1 = turns.filterMap Reading.Turn.statement? :=
      hread.trans hstatements
    have herrors : s'.errors = turns.filterMap Reading.Turn.error? := hrefused.trans hcauses
    have hlength : s.readProgram.1.length + s'.errors.length = turns.length := by
      rw [← Reading.length_turns turns, ← hprogram, ← herrors]
    refine ⟨turns, fun strays r n hn => ?_, hprogram, herrors, hlength⟩
    exact hturns (Routines.same_unfolded strays r (by omega)) (by omega)
  · have hremaining := hvisits.remaining_le hk
    have hcount := Token.countP_stream_le source.toList
    rw [hread, hrefused]
    exact (Nat.le_add_right _ _).trans (hremaining.trans hcount)
  · obtain ⟨hcursor, herrors⟩ := after_of_end hend steps
    obtain ⟨hprogram, hlater⟩ := readProgram_of_end (hcursor ▸ hend)
    exact ⟨hprogram, hlater.2.trans herrors⟩

/-- A text with blocks that are not closed and NUL characters in its midst: three turns, two of which
add errors. -/
theorem readProgram_ends_unclosed :
    let s := ofText "1; \x7b let x \x00 ( 2 \x7b 3; \x00\x00 4".toList
    let s' := s.readProgram.2
    2 * s.cursor.rest.length + 2 ≤ 30 ∧
      (∃ turns, Reading.turns? (Routines.atEnd.unfolded .refused 30).parts 30 s.cursor =
          some (turns, ⟨.endOfInput, [.endOfInput, .int "4"], 0⟩) ∧
        [.expected (.symbol .assign) .endOfInput,
          .expected (.symbol .rightParen) (.symbol .leftBrace)] =
            turns.filterMap Reading.Turn.error?) ∧
      (s'.after [.errors, .readProgram]).readProgram.1 = [] := by
  intro s s'
  have hlength : 2 * s.cursor.rest.length + 2 ≤ 30 := by decide +kernel
  have hcursor : s'.cursor = ⟨.endOfInput, [.endOfInput, .int "4"], 0⟩ := by decide +kernel
  have herrors : s'.errors = [.expected (.symbol .assign) .endOfInput,
      .expected (.symbol .rightParen) (.symbol .leftBrace)] := by decide +kernel
  obtain ⟨⟨turns, hturns, -, hmade, -⟩, -, -, hlater⟩ :=
    readProgram_ends "1; \x7b let x \x00 ( 2 \x7b 3; \x00\x00 4"
  refine ⟨hlength, ⟨turns, ?_, herrors.symm.trans hmade⟩, (hlater _).1⟩
  exact (hturns .refused .atEnd 30 hlength).trans (by rw [hcursor])

end Session

end TreeWalk
