/-
# Reading statement after statement

A program is read in steps: at each place in front of a statement, the statement is read or
refused, and reading goes on at the place behind it or at the place where a refused statement
ends.  `Visits p c ss es c'` says that such steps lead from `c` to `c'`, that they read the
statements `ss`, and that the others were refused for the errors `es`.

`results_eq_iff` says that the steps are what a reading is made of.
-/
import TreeWalk.Proofs.Refusal
import TreeWalk.Proofs.Stream

namespace TreeWalk

/-! ### Steps -/

namespace Reading

/-- Statements are read and refused, one after the other, on the way from one place to another. -/
inductive Visits (p : Parts) : Cursor → Program → List ParseError → Cursor → Prop
  | refl (c : Cursor) : Visits p c [] [] c
  | read {c c₁ c' : Cursor} {s : Statement} {ss : Program} {es : List ParseError}
    (hne : c.peek ≠ .endOfInput) (h : (Grammar.statement p).Ends c (.ok s) c₁)
    (h' : Visits p c₁ ss es c') : Visits p c (s :: ss) es c'
  | refused {c c₁ c' : Cursor} {e : ParseError} {ss : Program} {es : List ParseError}
    (hne : c.peek ≠ .endOfInput) (h : (Grammar.statement p).Ends c (.error e) c₁)
    (h' : Visits p c₁.recover ss es c') : Visits p c ss (e :: es) c'

/-- The program and the errors of a reading. -/
def results (r : Reading) : Program × List ParseError :=
  (r.program, r.errors)

variable {p : Parts} {k n : Nat} {c c₁ c' : Cursor} {s : Statement} {e : ParseError}
  {ss ss' : Program} {es es' : List ParseError}

lemma Visits.trans (h : Visits p c ss es c₁) (h' : Visits p c₁ ss' es' c') :
    Visits p c (ss ++ ss') (es ++ es') c' := by
  induction h with
  | refl => exact h'
  | read hne h _ ih => exact .read hne h (ih h')
  | refused hne h _ ih => exact .refused hne h (ih h')

/-- Reading ends where nothing is left. -/
lemma results_from_of_end (h : c.peek = .endOfInput) : (Reading.from p n c).results = ([], []) := by
  cases n with
  | zero => rfl
  | succ n => simp [Reading.from, results, h]

/-- A statement that is read, and what is read behind it. -/
lemma results_from_of_ok (hc : c.peek ≠ .endOfInput)
    (h : (Grammar.statement p).Ends c (.ok s) c') :
    (Reading.from p (n + 1) c).results = (Reading.from p n c').results.map (s :: ·) id := by
  obtain ⟨hr, rfl⟩ := h
  simp [Reading.from, results, Reading.cons, hc, hr]

/-- A statement that is refused, and what is read behind it. -/
lemma results_from_of_error (hc : c.peek ≠ .endOfInput)
    (h : (Grammar.statement p).Ends c (.error e) c') :
    (Reading.from p (n + 1) c).results = (Reading.from p n c'.recover).results.map id (e :: ·) := by
  obtain ⟨hr, rfl⟩ := h
  simp [Reading.from, results, Reading.cons, hc, hr]

end Reading

/-! ### Where a refused statement ends -/

namespace Cursor

/-- The place behind a token that ends a refused statement. -/
def ended (last : Token) (rest : List Token) : Cursor :=
  if last = .symbol .rightBrace ∧ rest.head? = some (.symbol .semicolon) then
    ⟨.symbol .semicolon, rest.tail, 0⟩
  else
    ⟨last, rest, 0⟩

variable {c c' : Cursor} {e : ParseError} {d : Nat} {last t : Token} {rest : List Token}

lemma behind_of_ends (h : last.endsRefused (last.depthBehind d)) :
    behind d last rest = ended last rest := by
  cases rest <;> simp [behind, ended, h]

lemma behind_nil (h : ¬ last.endsRefused (last.depthBehind d)) :
    behind d last [] = ended .endOfInput [] := by
  simp [behind, ended, h]

lemma behind_cons (h : ¬ last.endsRefused (last.depthBehind d)) :
    behind d last (t :: rest) = behind (last.depthBehind d) t rest := by
  simp [behind, h]

lemma ended_suffix (last : Token) (rest : List Token) : (ended last rest).rest <:+ rest := by
  rw [ended]
  split
  · exact List.tail_suffix rest
  · exact List.suffix_refl rest

lemma depth_ended : (ended last rest).depth = 0 := by
  rw [ended]
  split <;> rfl

lemma behind_suffix (d : Nat) (last : Token) (rest : List Token) :
    (behind d last rest).rest <:+ rest := by
  induction rest generalizing d last with
  | nil =>
    by_cases h : last.endsRefused (last.depthBehind d)
    · exact behind_of_ends h ▸ ended_suffix last []
    · exact behind_nil h ▸ ended_suffix .endOfInput []
  | cons t rest ih =>
    by_cases h : last.endsRefused (last.depthBehind d)
    · exact behind_of_ends h ▸ ended_suffix last (t :: rest)
    · rw [behind_cons h]
      exact (ih _ t).trans (List.suffix_cons t rest)

lemma depth_behind : (behind d last rest).depth = 0 := by
  induction rest generalizing d last with
  | nil =>
    by_cases h : last.endsRefused (last.depthBehind d)
    · exact behind_of_ends h ▸ depth_ended
    · exact behind_nil h ▸ depth_ended
  | cons t rest ih =>
    by_cases h : last.endsRefused (last.depthBehind d)
    · exact behind_of_ends h ▸ depth_ended
    · exact behind_cons h ▸ ih

/-! ### Each statement takes a token -/

lemma Refuses.length_lt (h : c.Refuses e c') (hne : c.peek ≠ .endOfInput) :
    c'.rest.length < c.rest.length := by
  cases h with
  | missing hts h =>
    have := List.length_pos_iff.2 hts
    have := h.length_eq
    omega
  | offending h =>
    have hlength := length_eq_next hne
    have hlength' := h.length_eq
    rw [rest_next, List.length_tail]
    omega

end Cursor

namespace Reading

open Cursor

variable {k n : Nat} {c c₁ c' : Cursor} {s : Statement} {e : ParseError} {ss : Program}
  {es : List ParseError}

/-- A step at a place leads to a place with fewer tokens behind it. -/
lemma length_recover_lt (hk : c.rest.length ≤ k) (hne : c.peek ≠ .endOfInput)
    (h : (Grammar.statement (.ofDepth k : Parts)).Ends c (.error e) c') :
    c'.recover.rest.length < c.rest.length := by
  have hlt := (Grammar.statement_refused (Parts.refused_ofDepth k) hk h).length_lt hne
  exact Nat.lt_of_le_of_lt (behind_suffix _ _ _).length_le hlt

lemma Refuses.rest_suffix (h : c.Refuses e c') : c'.rest <:+ c.rest := by
  cases h with
  | missing hts h => exact h.rest_eq ▸ List.suffix_append _ _
  | offending h => exact (List.tail_suffix _).trans (h.rest_eq ▸ List.suffix_append _ _)

/-- In front of a statement no block is open, and the tokens still to be read end the text. -/
lemma Visits.depth_eq (h : Visits (.ofDepth k) c ss es c') (hk : c.rest.length ≤ k)
    (hc : c.depth = 0) : c'.depth = 0 ∧ c'.rest <:+ c.rest := by
  induction h with
  | refl c => exact ⟨hc, List.suffix_refl _⟩
  | read hne h _ ih =>
    have hs := Grammar.statement_sound (Parts.sound_ofDepth k) h
    have hlt := hs.length_lt
    obtain ⟨ts, -, hpass, hdepth⟩ := hs.passes
    obtain ⟨hdepth', hsuffix⟩ := ih (by omega) (hdepth.trans hc)
    exact ⟨hdepth', hsuffix.trans (hpass.rest_eq ▸ List.suffix_append _ _)⟩
  | refused hne h _ ih =>
    have hlt := length_recover_lt hk hne h
    have hrefuses := Grammar.statement_refused (Parts.refused_ofDepth k) hk h
    obtain ⟨hdepth', hsuffix⟩ := ih (by omega) depth_behind
    exact ⟨hdepth', hsuffix.trans ((behind_suffix _ _ _).trans (Refuses.rest_suffix hrefuses))⟩

/-- Statements are read and refused in steps, up to the end of the input. -/
lemma exists_visits (hk : c.rest.length ≤ k) (hn : c.rest.length ≤ n) :
    ∃ c', Visits (.ofDepth k) c (Reading.from (.ofDepth k) n c).results.1
      (Reading.from (.ofDepth k) n c).results.2 c' ∧ c'.peek = .endOfInput := by
  induction n generalizing c with
  | zero =>
    have hrest : c.rest = [] := List.eq_nil_of_length_eq_zero (Nat.le_zero.1 hn)
    exact ⟨c, .refl c, by simp [Cursor.peek, hrest]⟩
  | succ n ih =>
    by_cases hc : c.peek = .endOfInput
    · rw [results_from_of_end hc]
      exact ⟨c, .refl c, hc⟩
    have hend : (Grammar.statement (.ofDepth k : Parts)).Ends c _ _ := ⟨rfl, rfl⟩
    rcases hr : (Grammar.statement (.ofDepth k : Parts) c).result with e | s
    · rw [hr] at hend
      have hlt := length_recover_lt hk hc hend
      obtain ⟨c', hvisits, hc'⟩ := ih (Nat.le_trans (Nat.le_of_lt hlt) hk) (by omega)
      rw [results_from_of_error hc hend]
      exact ⟨c', .refused hc hend hvisits, hc'⟩
    · rw [hr] at hend
      have hlt := (Grammar.statement_sound (Parts.sound_ofDepth k) hend).length_lt
      obtain ⟨c', hvisits, hc'⟩ := ih (Nat.le_trans (Nat.le_of_lt hlt) hk) (by omega)
      rw [results_from_of_ok hc hend]
      exact ⟨c', .read hc hend hvisits, hc'⟩

lemma Visits.results_eq (h : Visits (.ofDepth k) c ss es c') (hc' : c'.peek = .endOfInput)
    (hk : c.rest.length ≤ k) (hn : c.rest.length ≤ n) :
    (Reading.from (.ofDepth k) n c).results = (ss, es) := by
  induction h generalizing n with
  | refl => exact results_from_of_end hc'
  | read hne h _ ih =>
    have hlt := (Grammar.statement_sound (Parts.sound_ofDepth k) h).length_lt
    obtain ⟨n, rfl⟩ : ∃ m, n = m + 1 := ⟨n - 1, by omega⟩
    rw [results_from_of_ok hne h, ih hc' (by omega) (by omega)]
    rfl
  | refused hne h _ ih =>
    have hlt := length_recover_lt hk hne h
    obtain ⟨n, rfl⟩ : ∃ m, n = m + 1 := ⟨n - 1, by omega⟩
    rw [results_from_of_error hne h, ih hc' (by omega) (by omega)]
    rfl

/-- What a reading gives is what the steps to the end of the input give. -/
theorem results_eq_iff (hk : c.rest.length ≤ k) (hn : c.rest.length ≤ n) :
    (Reading.from (.ofDepth k) n c).results = (ss, es) ↔
      ∃ c', Visits (.ofDepth k) c ss es c' ∧ c'.peek = .endOfInput := by
  constructor
  · intro h
    obtain ⟨c', hvisits, hc'⟩ := exists_visits hk hn
    rw [h] at hvisits
    exact ⟨c', hvisits, hc'⟩
  · rintro ⟨c', h, hc'⟩
    exact h.results_eq hc' hk hn

end Reading

/-! ### Sources -/

namespace Cursor

/-- The tokens that stand in front of the next end of input. -/
lemma passes_to_end_iff {c : Cursor} {ts : List Token} :
    (∃ c', c.Passes ts c' ∧ c'.peek = .endOfInput) ↔
      c.rest.takeWhile (fun t => t ≠ .endOfInput) = ts := by
  induction ts generalizing c with
  | nil =>
    obtain ⟨last, rest, d⟩ := c
    cases rest with
    | nil => simp
    | cons u us => by_cases hu : u = .endOfInput <;> simp [hu]
  | cons t ts ih =>
    simp only [Passes, and_assoc, exists_and_left, ih]
    obtain ⟨last, rest, d⟩ := c
    cases rest with
    | nil => simp +contextual
    | cons u us =>
      by_cases hu : u = .endOfInput
      · simp +contextual [hu]
      · simp only [peek_cons, pass, List.tail_cons, List.takeWhile_cons, hu, ne_eq,
          not_false_eq_true, decide_true, if_true, List.cons.injEq]
        constructor
        · rintro ⟨rfl, -, h⟩
          exact ⟨rfl, h⟩
        · rintro ⟨rfl, h⟩
          exact ⟨rfl, hu, h⟩

/-- The tokens of a source text are those that stand at its start in front of its end. -/
lemma passes_start_iff {source : String} {ts : List Token} :
    (∃ c', (start (Token.stream source.toList)).Passes ts c' ∧ c'.peek = .endOfInput) ↔
      Token.ofSource source = ts := by
  rw [passes_to_end_iff, Token.ofSource, Token.upToEnd_fst]
  rfl

end Cursor

/-- The parsers for the parts of a source text. -/
abbrev Parts.ofSource (source : String) : Parts :=
  .ofDepth (Token.stream source.toList).length

/-- What a source text is read as is what the steps from its start to its end give. -/
theorem parse_eq_iff {source : String} {ss : Program} {es : List ParseError} :
    parse source = (ss, es) ↔ ∃ c', Reading.Visits (.ofSource source)
      (.start (Token.stream source.toList)) ss es c' ∧ c'.peek = .endOfInput :=
  Reading.results_eq_iff (Nat.le_refl _) (Nat.le_refl _)

end TreeWalk
