/-
# What errors say is true

An error names a token that was wanted, or says that no expression begins with a token, or that a
number is too large.  Each of these is so (`ParseError.Truthful`): the token that was found is of
another kind than the one that was wanted, no expression does begin with it, and the digits stand
in the text and make a number beyond the greatest integer.

A statement is refused only where a phrase is stuck (`TreeWalk.Proofs.Stuck`), and what makes a
phrase stuck makes the error true (`Stuck.truthful`).  So it remains to follow the errors through a
session (`Session.Sound`).

The routines of `TreeWalk.Proofs.Routines` have further errors ready, for tokens that no table sends
to them.  None of these would be true, and none is ever reported: a reading is the same whatever is
done with such tokens (`Reading.from_same`).
-/
import Mathlib.Tactic.Common
import TreeWalk.Proofs.EndOfInput
import TreeWalk.Proofs.Routines
import TreeWalk.Proofs.Stuck.Sound
import TreeWalk.Proofs.Tracing

namespace TreeWalk

namespace Token

/-- The tokens that may be missing. -/
def awaited : List Token :=
  [.ident "", .symbol .assign, .symbol .leftParen, .symbol .rightParen, .symbol .leftBrace,
    .symbol .rightBrace]

/-- A token stands in the text, or is the end of it. -/
def Occurs (text : List Char) (t : Token) : Prop :=
  t = .endOfInput ∨ t ∈ stream text

variable {t : Token} {text : List Char}

/-! ### Kinds -/

lemma eq_ident_of_kind {name : String} (h : t.kind = (ident name).kind) : ∃ x, t = ident x := by
  cases t with
  | ident x => exact ⟨x, rfl⟩
  | illegal c | endOfInput | int x => exact absurd h (by simp [kind])
  | symbol s => exact absurd h (by cases s <;> simp [kind, Symbol.text])
  | keyword k => exact absurd h (by cases k <;> simp [kind, Keyword.kind])

lemma eq_symbol_of_text {s s' : Symbol} (h : s.text = s'.text) : s = s' := by
  -- the tokens of a spelling tell which sign it is
  have hstream := congrArg (fun text => stream text.toList) h
  simpa [stream_sign] using hstream

lemma eq_symbol_of_kind {s : Symbol} (h : t.kind = (symbol s).kind) : t = symbol s := by
  -- the other kinds are words
  have hsign : ¬ (symbol s).kind.toList.any isLetter := by cases s <;> decide
  rw [← h] at hsign
  cases t with
  | symbol s' => rw [eq_symbol_of_text h]
  | illegal c => exact absurd (show "ILLEGAL".toList.any isLetter by decide) hsign
  | endOfInput => exact absurd (show "EOF".toList.any isLetter by decide) hsign
  | ident x => exact absurd (show "IDENT".toList.any isLetter by decide) hsign
  | int x => exact absurd (show "INT".toList.any isLetter by decide) hsign
  | keyword k => exact absurd (by cases k <;> decide) hsign

/-! ### Digits -/

lemma LaidOut.isInfix_piece {ts : List Token} (h : LaidOut ts text) (ht : t ∈ ts) :
    t.piece <:+: text := by
  induction h with
  | nil => cases ht
  | @cons blanks rest u ts hblanks hstop h ih =>
    rcases List.mem_cons.mp ht with rfl | ht
    · exact ⟨blanks, rest, by simp⟩
    · exact (ih ht).trans ⟨blanks ++ u.piece, [], by simp⟩

/-- A number of a text is a row of digits of that text. -/
lemma digits_of_mem_stream {digits : String} (h : int digits ∈ stream text) :
    digits ≠ "" ∧ (∀ c ∈ digits.toList, isDigit c) ∧ digits.toList <:+: text := by
  have hwritable : (int digits).isWritable :=
    (mayOccur_of_mem_stream h).resolve_right (by simp)
  simp only [isWritable, Bool.and_eq_true, decide_eq_true_eq, List.all_eq_true] at hwritable
  exact ⟨hwritable.1, hwritable.2, (laidOut_stream text).isInfix_piece h⟩

/-! ### Tokens that are skipped -/

lemma stream_read_suffix (text : List Char) : stream (read text).2 <:+ stream text := by
  cases h : text.dropWhile isBlank with
  | nil =>
    have hnone : stream [] = [] := stream_of_nil rfl
    rw [read_of_nil h, hnone]
    exact List.nil_suffix
  | cons c rest =>
    rw [read_of_cons h, stream_of_cons h]
    exact List.suffix_cons _ _

lemma stream_skipped_suffix (n : Nat) (text : List Char) :
    stream (skipped n text) <:+ stream text := by
  induction n generalizing text with
  | zero => exact List.suffix_refl _
  | succ n ih => exact (ih _).trans (stream_read_suffix text)

end Token

/-! ### Errors -/

namespace ParseError

/-- What an error says of a text is so. -/
def Truthful (text : List Char) : ParseError → Prop
  | expected wanted found =>
    wanted ∈ Token.awaited ∧ found.kind ≠ wanted.kind ∧ found.Occurs text
  | noExpressionAt t => ¬ t.beginsExpression ∧ t.Occurs text
  | integerTooLarge digits =>
    digits ≠ "" ∧ (∀ c ∈ digits.toList, Token.isDigit c) ∧ digits.toList <:+: text ∧
      (Token.int digits).Occurs text ∧ Integer.greatest < Decimal.value digits.toList

variable {text : List Char} {t : Token} {x : Symbol}

lemma truthful_expected_symbol (hx : .symbol x ∈ Token.awaited) (ht : t ≠ .symbol x)
    (hfound : t.Occurs text) : (expected (.symbol x) t).Truthful text :=
  ⟨hx, fun hkind => ht (Token.eq_symbol_of_kind hkind), hfound⟩

lemma truthful_expected_ident (ht : ∀ name, t ≠ .ident name) (hfound : t.Occurs text) :
    (expected (.ident "") t).Truthful text := by
  refine ⟨by simp [Token.awaited], fun hkind => ?_, hfound⟩
  obtain ⟨name, hname⟩ := Token.eq_ident_of_kind hkind
  exact ht name hname

lemma truthful_integerTooLarge {digits : String}
    (h : Integer.ofInt? (Decimal.value digits.toList) = none)
    (hfound : (Token.int digits).Occurs text) : (integerTooLarge digits).Truthful text := by
  obtain ⟨hne, hdigits, hinfix⟩ := Token.digits_of_mem_stream (hfound.resolve_left (by simp))
  refine ⟨hne, hdigits, hinfix, hfound, (Integer.ofInt?_eq_none_iff.mp h).resolve_left ?_⟩
  -- a row of digits stands for no negative number
  simp only [Integer.least]
  omega

end ParseError

/-! ### Where a phrase is stuck -/

section Stuck

variable {text : List Char} {ts : List Token} {e : ParseError} {w : Wanted}

lemma ListStuck.truthful {α : Type} {W : α → List Token → Token → Prop}
    {S : List Token → ParseError → Prop} (h : ListStuck W S ts e)
    (hS : ∀ {us e}, S us e → e.found.Occurs text → e.Truthful text)
    (hfound : e.found.Occurs text) : e.Truthful text := by
  induction h with
  | item h => exact hS h hfound
  | notClosed _ _ hparen =>
    exact ParseError.truthful_expected_symbol (by simp [Token.awaited]) hparen hfound
  | further _ _ ih => exact ih hfound

lemma ParameterStuck.truthful (h : ParameterStuck ts e) (hfound : e.found.Occurs text) :
    e.Truthful text := by
  obtain ⟨-, t, ht, rfl⟩ := h
  exact ParseError.truthful_expected_ident ht hfound

theorem Stuck.truthful (h : Stuck w ts e) (hfound : e.found.Occurs text) : e.Truthful text := by
  induction h with
  | noOperand ht => exact ⟨ht, hfound⟩
  | tooLarge h => exact ParseError.truthful_integerTooLarge h hfound
  | conditional ht | function ht | notClosed _ _ ht | argumentsNotClosed _ _ _ ht
  | notOpened ht | bindingSign _ ht =>
    exact ParseError.truthful_expected_symbol (by simp [Token.awaited]) ht hfound
  | parameters h => exact h.truthful ParameterStuck.truthful hfound
  | unclosed =>
    exact ParseError.truthful_expected_symbol (by simp [Token.awaited]) (by simp) hfound
  | bindingName ht => exact ParseError.truthful_expected_ident ht hfound
  | _ =>
    -- a part of the phrase is stuck
    rename_i ih
    exact ih hfound

end Stuck

lemma Cursor.StuckIn.occurs {L : List Token → ParseError → Prop} {c : Cursor} {e : ParseError}
    {text : List Char} (h : c.StuckIn L e) (hc : c.rest <:+ Token.stream text) :
    e.found.Occurs text := by
  obtain ⟨ts, c₁, -, hpass, hfound⟩ := h
  rw [← hfound]
  by_cases hend : c₁.peek = .endOfInput
  · exact Or.inl hend
  · have hmem : c₁.peek ∈ c.rest := by
      rw [hpass.rest_eq, rest_of_peek rfl hend]
      simp
    exact Or.inr (hc.subset hmem)

/-! ### Readings -/

namespace Reading

variable {p : Parts} {c c' : Cursor} {ss : Program} {es : List ParseError} {e : ParseError}
  {k : Nat} {text : List Char}

/-- Each error is the one for which a statement is refused on the way. -/
lemma Visits.exists_refused (h : Visits p c ss es c') (he : e ∈ es) : ∃ ss' es' c₁ c₂,
    Visits p c ss' es' c₁ ∧ (Grammar.statement p).Ends c₁ (.error e) c₂ := by
  induction h with
  | refl c => cases he
  | read hne h _ ih =>
    obtain ⟨ss', es', c₁, c₂, hvisits, hrefused⟩ := ih he
    exact ⟨_, _, c₁, c₂, .read hne h hvisits, hrefused⟩
  | @refused c _ _ _ _ _ hne h _ ih =>
    rcases List.mem_cons.mp he with rfl | he
    · exact ⟨[], [], c, _, .refl c, h⟩
    · obtain ⟨ss', es', c₁, c₂, hvisits, hrefused⟩ := ih he
      exact ⟨_, _, c₁, c₂, .refused hne h hvisits, hrefused⟩

theorem Visits.truthful (h : Visits (.ofDepth k) c ss es c') (hk : c.rest.length ≤ k)
    (hdepth : c.depth = 0) (hc : c.rest <:+ Token.stream text) (he : e ∈ es) :
    e.Truthful text := by
  obtain ⟨ss', es', c₁, c₂, hvisits, hrefused⟩ := h.exists_refused he
  obtain ⟨-, hsuffix⟩ := hvisits.depth_eq hk hdepth
  have hstuck := Grammar.statement_stuck (Parts.stuckSound_ofDepth k)
    (hsuffix.length_le.trans hk) hrefused
  have hfound := hstuck.occurs (hsuffix.trans hc)
  obtain ⟨ts, c₃, hstuck, -, -⟩ := hstuck
  exact hstuck.truthful hfound

/-- A program is read alike by parsers that do the same in front of as many tokens as are left. -/
lemma from_same (h : p.Same k (.ofDepth k)) (hk : c.rest.length ≤ k) (n : Nat) :
    Reading.from p n c = Reading.from (.ofDepth k) n c := by
  induction n generalizing c with
  | zero => rfl
  | succ n ih =>
    by_cases hc : c.peek = .endOfInput
    · simp [Reading.from, hc]
    have hstatement : Grammar.statement p c = Grammar.statement (.ofDepth k : Parts) c :=
      h.statement hk
    have hend : (Grammar.statement (.ofDepth k : Parts)).Ends c _ _ := ⟨rfl, rfl⟩
    simp only [Reading.from, hc, if_false, hstatement]
    congr 1
    refine ih ?_
    rcases hr : (Grammar.statement (.ofDepth k : Parts) c).result with e | s <;> rw [hr] at hend
    · exact (Nat.le_of_lt (length_recover_lt hk hc hend)).trans hk
    · have hlt := (Grammar.statement_sound (Parts.sound_ofDepth k) hend).length_lt
      exact (Nat.le_of_lt hlt).trans hk

end Reading

/-! ### Sessions -/

namespace Session

variable {s : Session} {text : List Char}

/-- A session stands in front of a statement of the text, and its errors are true. -/
structure Sound (text : List Char) (s : Session) : Prop where
  depth : s.cursor.depth = 0
  suffix : s.cursor.rest <:+ Token.stream text
  truthful : ∀ e ∈ s.errors, e.Truthful text

lemma Sound.readProgram (h : s.Sound text) : s.readProgram.2.Sound text := by
  obtain ⟨c, hvisits, hend⟩ :=
    Reading.exists_visits (Nat.le_refl s.cursor.rest.length) (Nat.le_refl _)
  have hc := hvisits.cursor_eq hend (Nat.le_refl _) (Nat.le_refl _)
  obtain ⟨hdepth, hsuffix⟩ := hvisits.depth_eq (Nat.le_refl _) h.depth
  rw [← hc] at hdepth hsuffix
  rw [readProgram_eq]
  refine ⟨hdepth, hsuffix.trans h.suffix, fun e he => ?_⟩
  rcases List.mem_append.mp he with he | he
  · exact h.truthful e he
  · exact hvisits.truthful (Nat.le_refl _) h.depth h.suffix he

lemma Sound.perform (h : s.Sound text) (step : Step) : (s.perform step).2.Sound text := by
  cases step with
  | readProgram => exact h.readProgram
  | errors => exact h
  | takeListing | trace => exact ⟨h.depth, h.suffix, h.truthful⟩

lemma Sound.after (h : s.Sound text) (steps : List Step) : (s.after steps).Sound text := by
  induction steps generalizing s with
  | nil => exact h
  | cons step steps ih => exact ih (h.perform step)

lemma sound_ofText_skipped (n : Nat) (text : List Char) :
    (ofText (Token.skipped n text)).Sound text :=
  ⟨rfl, Token.stream_skipped_suffix n text, fun _ he => absurd he List.not_mem_nil⟩

/-- Every error of a session is true, over any text, with any number of tokens skipped in front,
and whatever was asked before.  No routine meets a token that its table does not send to it:
whatever the routines do with strays, the next reading is the same. -/
theorem errors_truthful (source : String) (n : Nat) (steps : List Step) :
    let s := (ofText (Token.skipped n source.toList)).after steps
    (∀ e ∈ s.errors, e.Truthful source.toList) ∧
      ∀ (strays : Strays) (r : Routines) (m : Nat), 2 * s.cursor.rest.length + 1 ≤ m →
        Reading.from (r.unfolded strays m).parts s.cursor.rest.length s.cursor = s.cursor.read := by
  intro s
  refine ⟨((sound_ofText_skipped n source.toList).after steps).truthful, fun strays r m hm => ?_⟩
  exact Reading.from_same (Routines.same_unfolded strays r hm) (Nat.le_refl _) _

/-- Errors of all kinds, behind a token that is skipped. -/
theorem errors_truthful_of_each_kind :
    let source := "; let 5; ) ; -9223372036854775808; (1"
    let s := ofText (Token.skipped 1 source.toList)
    let errors := [.expected (.ident "") (.int "5"), .noExpressionAt (.symbol .rightParen),
      .integerTooLarge "9223372036854775808", .expected (.symbol .rightParen) .endOfInput]
    (s.after [.readProgram]).errors = errors ∧ (∀ e ∈ errors, e.Truthful source.toList) ∧
      2 * s.cursor.rest.length + 1 ≤ 30 ∧
      Reading.from (Routines.atEnd.unfolded .refused 30).parts s.cursor.rest.length s.cursor =
        s.cursor.read := by
  intro source s errors
  have herrors : (s.after [.readProgram]).errors = errors := by decide +kernel
  have hlength : 2 * s.cursor.rest.length + 1 ≤ 30 := by decide +kernel
  obtain ⟨htruthful, -⟩ := errors_truthful source 1 [.readProgram]
  obtain ⟨-, hread⟩ := errors_truthful source 1 []
  exact ⟨herrors, herrors ▸ htruthful, hlength, hread .refused .atEnd 30 hlength⟩

end Session

end TreeWalk
