/-
# The first error of a text

A statement is refused at the earliest token at which it can be.  The tokens in front of the one
that the first error speaks of begin some text that is accepted, and with that token behind them
they begin none: every text that begins so has the same first error, behind the same statements
(`parse_earliest`).

Both follow from what it means for a statement to be stuck (`TreeWalk.Proofs.Stuck`).  The
statements in front of it are read again wherever their tokens stand, as long as the same token
stands behind them (`Reading.Visits.exists_again`).
-/
import TreeWalk.Proofs.Acceptance
import TreeWalk.Proofs.Stuck.Complete
import TreeWalk.Proofs.Stuck.Sound

namespace TreeWalk

/-! ### Reading again -/

namespace Cursor

variable {c c' : Cursor} {ts us : List Token} {s : Statement}

/-- Tokens that stand at a place can be passed. -/
lemma exists_passes (hrest : c.rest = ts ++ us) (hts : .endOfInput ∉ ts) :
    ∃ c', c.Passes ts c' ∧ c'.rest = us := by
  induction ts generalizing c with
  | nil => exact ⟨c, .refl c, hrest⟩
  | cons t ts ih =>
    rw [List.mem_cons, not_or] at hts
    have hpass : c.pass.rest = ts ++ us := by rw [pass, hrest]; rfl
    obtain ⟨c', hpass, hc'⟩ := ih hpass hts.2
    exact ⟨c', ⟨by rw [peek, hrest]; rfl, Ne.symm hts.1, hpass⟩, hc'⟩

/-- A statement stands wherever its tokens do, with the same token behind them. -/
lemma HoldsStatement.exists_again (h : c.HoldsStatement s c') : ∃ ts, c.Passes ts c' ∧
    ∀ {d d' : Cursor}, d.Passes ts d' → d'.peek = c'.peek → d.HoldsStatement s d' := by
  obtain ⟨o, ts, c₁, hform, hpass, hstop, rfl⟩ := h
  by_cases hsemi : c₁.peek = .symbol .semicolon
  · rw [skipping, if_pos hsemi]
    refine ⟨ts ++ [.symbol .semicolon], hpass.trans (.single hsemi rfl), ?_⟩
    intro d d' hd _
    obtain ⟨d₁, hts, hd₁⟩ := passes_append.1 hd
    obtain ⟨hpeek, rfl⟩ := (passes_plain rfl).1 hd₁
    refine ⟨o, ts, d₁, hform, hts, ?_, by rw [skipping, if_pos hpeek]⟩
    exact Or.inr (Token.not_extends_of_none (by rw [hpeek]; rfl) (by simp [hpeek]))
  · rw [skipping, if_neg hsemi]
    refine ⟨ts, hpass, ?_⟩
    intro d d' hd hpeek
    rw [← hpeek] at hsemi hstop
    exact ⟨o, ts, d', hform, hd, hstop, by rw [skipping, if_neg hsemi]⟩

lemma HoldsStatement.peek_ne (h : c.HoldsStatement s c') : c.peek ≠ .endOfInput := by
  intro hend
  have hbegins := h.beginsStatement
  rw [hend] at hbegins
  cases hbegins

end Cursor

namespace Reading

open Cursor

variable {c c₁ c₂ c' : Cursor} {ss ss' : Program} {es : List ParseError} {e e' : ParseError}
  {k : Nat}

/-- The tokens `ts` spell the statements `ss`, and these are read wherever the tokens stand with `t`
behind them. -/
structure ReadsAs (ss : Program) (ts : List Token) (t : Token) : Prop where
  form : Form (.statements ss) ts
  visits : ∀ {m : Nat} {d d' : Cursor}, d.rest.length ≤ m → d.Passes ts d' → d'.peek = t →
    Visits (.ofDepth m) d ss [] d'

/-- Statements that are read are read wherever their tokens stand, with the same token behind
them. -/
lemma Visits.exists_again (h : Visits (.ofDepth k) c ss [] c') : ∃ ts, c.Passes ts c' ∧
    ∀ {m d d'}, d.rest.length ≤ m → d.Passes ts d' → d'.peek = c'.peek →
      Visits (.ofDepth m) d ss [] d' := by
  generalize hes : ([] : List ParseError) = es at h
  induction h with
  | refl c =>
    refine ⟨[], .refl c, ?_⟩
    rintro m d d' - rfl -
    exact .refl _
  | read hne h _ ih =>
    obtain ⟨us, hus, hvisits⟩ := ih hes
    obtain ⟨ts, hts, hagain⟩ :=
      (Grammar.statement_sound (Parts.sound_ofDepth k) h).exists_again
    refine ⟨ts ++ us, hts.trans hus, ?_⟩
    intro m d d' hm hd hpeek
    obtain ⟨d₁, hd₁, hd'⟩ := passes_append.1 hd
    -- behind the statement stands the first token of the next one, in both places
    have hholds := hagain hd₁ (by rw [hd'.headD_eq, hpeek, ← hus.headD_eq])
    have hlt := hholds.length_lt
    exact .read hholds.peek_ne (Grammar.statement_complete (Parts.complete_ofDepth m) hm hholds)
      (hvisits (by omega) hd' hpeek)
  | refused => cases hes

lemma Visits.exists_readsAs (h : Visits (.ofDepth k) c ss [] c') :
    ∃ ts, ReadsAs ss ts c'.peek ∧ c.Passes ts c' := by
  obtain ⟨ts, hpass, hagain⟩ := h.exists_again
  obtain ⟨us, hform, hpass'⟩ := h.exists_form
  have hrest := hpass'.rest_eq.symm.trans hpass.rest_eq
  obtain rfl : us = ts := List.append_cancel_right hrest
  exact ⟨us, ⟨hform, hagain⟩, hpass⟩

/-- Up to the first error, all statements are read. -/
lemma Visits.exists_first (h : Visits (.ofDepth k) c ss es c') (he : es.head? = some e) :
    ∃ ss' c₁, Visits (.ofDepth k) c ss' [] c₁ ∧ c₁.peek ≠ .endOfInput ∧
      (Grammar.statement (.ofDepth k : Parts)).Fails c₁ e := by
  induction h with
  | refl => cases he
  | read hne h _ ih =>
    obtain ⟨ss', c₁, hvisits, hfails⟩ := ih he
    exact ⟨_ :: ss', c₁, .read hne h hvisits, hfails⟩
  | @refused c _ _ e' _ _ hne h _ _ =>
    obtain rfl : e' = e := Option.some.inj he
    exact ⟨[], c, .refl c, hne, _, h⟩

/-- There is one first statement that is refused. -/
lemma Visits.first_unique (h : Visits (.ofDepth k) c ss [] c₁)
    (hfails : (Grammar.statement (.ofDepth k : Parts)).Fails c₁ e)
    (h' : Visits (.ofDepth k) c ss' [] c₂)
    (hfails' : (Grammar.statement (.ofDepth k : Parts)).Fails c₂ e') : ss = ss' ∧ e = e' := by
  generalize hes : ([] : List ParseError) = es at h
  induction h generalizing ss' with
  | refl c =>
    obtain ⟨d, hend⟩ := hfails
    rcases h' with _ | ⟨-, hread, -⟩
    · obtain ⟨d', hend'⟩ := hfails'
      exact ⟨rfl, Except.error.inj (hend.unique hend').1⟩
    · cases (hend.unique hread).1
  | read hne hread _ ih =>
    rcases h' with _ | ⟨-, hread', h'⟩
    · obtain ⟨d', hend'⟩ := hfails'
      cases (hread.unique hend').1
    · obtain ⟨hs, rfl⟩ := hread.unique hread'
      obtain ⟨rfl, he⟩ := ih hfails h' hes
      exact ⟨by rw [Except.ok.inj hs], he⟩
  | refused => cases hes

end Reading

/-- A statement is refused just where it is stuck. -/
theorem Grammar.statement_fails_iff {c : Cursor} {e : ParseError} {n : Nat}
    (hn : c.rest.length ≤ n) :
    (statement (.ofDepth n : Parts)).Fails c e ↔ c.StuckIn (Stuck .statement) e := by
  constructor
  · rintro ⟨c', h⟩
    exact statement_stuck (Parts.stuckSound_ofDepth n) hn h
  · intro h
    exact statement_fails (Parts.stuckComplete_ofDepth n) hn h

/-! ### The first error -/

open Token Cursor Reading

/-- The statements `ss` of a source text are read, and the statement behind them is refused for
the reason `e`. -/
def FirstRefused (source : String) (ss : Program) (e : ParseError) : Prop :=
  ∃ c, Visits (.ofSource source) (.start (stream source.toList)) ss [] c ∧
    c.peek ≠ .endOfInput ∧ (Grammar.statement (.ofSource source)).Fails c e

/-- The tokens `ts` are read as the statements `ss`, and the tokens `us` behind them are a statement
that is stuck for the reason `e`. -/
structure BreaksOff (ss : Program) (e : ParseError) (ts us : List Token) : Prop where
  readsAs : ReadsAs ss ts (us.headD e.found)
  stuck : Stuck .statement us e
  ne : us.headD e.found ≠ .endOfInput

variable {source : String} {ss ss' : Program} {e e' : ParseError} {ts us : List Token}

lemma exists_firstRefused (h : (parse source).2.head? = some e) :
    ∃ ss, FirstRefused source ss e := by
  obtain ⟨c, hvisits, -⟩ := parse_eq_iff.1 (rfl : parse source = ((parse source).1, (parse source).2))
  exact hvisits.exists_first h

/-- The statement that is refused first and those in front of it are told by the text. -/
theorem FirstRefused.unique (h : FirstRefused source ss e) (h' : FirstRefused source ss' e') :
    ss = ss' ∧ e = e' := by
  obtain ⟨c, hvisits, -, hfails⟩ := h
  obtain ⟨c', hvisits', -, hfails'⟩ := h'
  exact hvisits.first_unique hfails hvisits' hfails'

/-- The statement that is refused first has the first error, and the statements in front of it are
the first ones of the program. -/
lemma FirstRefused.parse_eq (h : FirstRefused source ss e) :
    ∃ ss' es, parse source = (ss ++ ss', e :: es) := by
  obtain ⟨c, hvisits, hne, c₁, hend⟩ := h
  have hle := (hvisits.depth_eq (Nat.le_refl _) rfl).2.length_le
  have hlt := length_recover_lt hle hne hend
  obtain ⟨c', hrest, hc'⟩ :=
    exists_visits (Nat.le_trans (Nat.le_of_lt hlt) hle) (Nat.le_refl c₁.recover.rest.length)
  exact ⟨_, _, parse_eq_iff.2 ⟨c', hvisits.trans (.refused hne hend hrest), hc'⟩⟩

/-- A text has its first error where its tokens break off, whatever stands behind. -/
lemma firstRefused_iff : FirstRefused source ss e ↔ ∃ ts us, BreaksOff ss e ts us ∧
    ∃ c, (start (stream source.toList)).Passes (ts ++ us) c ∧ c.peek = e.found := by
  constructor
  · rintro ⟨c, hvisits, hne, hfails⟩
    have hle := (hvisits.depth_eq (Nat.le_refl _) rfl).2.length_le
    obtain ⟨ts, hreads, hts⟩ := hvisits.exists_readsAs
    obtain ⟨us, c₁, hstuck, hus, hfound⟩ := (Grammar.statement_fails_iff hle).1 hfails
    rw [hus.headD_eq, hfound] at hreads hne
    exact ⟨ts, us, ⟨hreads, hstuck, hne⟩, c₁, hts.trans hus, hfound⟩
  · rintro ⟨ts, us, ⟨hreads, hstuck, hne⟩, c₁, hpass, hfound⟩
    obtain ⟨c, hts, hus⟩ := passes_append.1 hpass
    have hpeek : c.peek = us.headD e.found := by rw [hus.headD_eq, hfound]
    refine ⟨c, hreads.visits (Nat.le_refl _) hts hpeek, hpeek ▸ hne, ?_⟩
    exact (Grammar.statement_fails_iff hts.length_le).2 ⟨us, c₁, hstuck, hus, hfound⟩

/-- Tokens that break off begin a text that is accepted. -/
lemma BreaksOff.exists_accepted (h : BreaksOff ss e ts us)
    (hwritable : ∀ t ∈ ts ++ us, t.isWritable) :
    ∃ z accepted, nul ∉ accepted.toList ∧ ofSource accepted = ts ++ us ++ z ∧
      (parse accepted).2 = [] := by
  rcases us with _ | ⟨u, us⟩
  · -- the statements in front of the one that is stuck are a text of their own
    obtain ⟨accepted, hnul, hsource⟩ := exists_ofSource hwritable
    refine ⟨[], accepted, hnul, by rw [hsource, List.append_nil (_ ++ _)], ?_⟩
    rw [List.append_nil] at hsource
    obtain ⟨c', hpass, hend⟩ := passes_start_iff.2 hsource
    rw [parse_eq_iff.2 ⟨c', visits_of_form h.readsAs.form hpass hend (Nat.le_refl _), hend⟩]
  · obtain ⟨z, hz, s, o, hs⟩ := h.stuck.completes
    have hall : ∀ t ∈ ts ++ (u :: us) ++ z, t.isWritable := by
      intro t ht
      exact (List.mem_append.1 ht).elim (hwritable t) (hz t)
    obtain ⟨accepted, hnul, hsource⟩ := exists_ofSource hall
    refine ⟨z, accepted, hnul, hsource, ?_⟩
    obtain ⟨d', hpass, hend⟩ := passes_start_iff.2 hsource
    rw [List.append_assoc] at hpass
    obtain ⟨d, hts, hrest⟩ := passes_append.1 hpass
    have hholds : d.HoldsStatement s d' := by
      refine ⟨o, _, d', hs, hrest, Or.inr ?_, ?_⟩
      · rw [hend]
        exact Token.not_extends_of_none rfl (by simp)
      · rw [skipping, if_neg (by simp [hend])]
    have hread := Grammar.statement_complete (Parts.complete_ofDepth _) hts.length_le hholds
    have hvisits := (h.readsAs.visits (Nat.le_refl _) hts hrest.peek_eq).trans
      (.read hholds.peek_ne hread (.refl d'))
    rw [parse_eq_iff.2 ⟨d', hvisits, hend⟩]
    rfl

/-- The first error of a source text speaks of the earliest token that it could: the tokens in
front begin a text that is accepted, and with this token behind them they begin none.  Every text
that begins so has the same first error, behind the same statements. -/
theorem parse_earliest (hnul : nul ∉ source.toList) (h : (parse source).2.head? = some e) :
    ∃ ss w rest, FirstRefused source ss e ∧
      ofSource source ++ [.endOfInput] = w ++ e.found :: rest ∧
      (∃ z accepted, nul ∉ accepted.toList ∧ ofSource accepted = w ++ z ∧
        (parse accepted).2 = []) ∧
      (e.found ≠ .endOfInput → ∀ source', nul ∉ source'.toList →
        w ++ [e.found] <+: ofSource source' → FirstRefused source' ss e ∧
          (parse source').2.head? = some e ∧ ss <+: (parse source').1) := by
  obtain ⟨ss, hrefused⟩ := exists_firstRefused h
  obtain ⟨ts, us, hbreaks, c, hpass, hfound⟩ := firstRefused_iff.1 hrefused
  have hstream : stream source.toList = ts ++ us ++ c.rest := hpass.rest_eq
  have hends := hpass.endOfInput_notMem
  refine ⟨ss, ts ++ us, (c.rest ++ [endOfInput]).tail, hrefused, ?_, ?_, ?_⟩
  · rw [ofSource_eq_stream hnul, hstream, List.append_assoc, ← hfound, peek]
    cases c.rest <;> rfl
  · refine hbreaks.exists_accepted ?_
    intro t ht
    have hmem : t ∈ stream source.toList := hstream ▸ List.mem_append_left _ ht
    refine (mayOccur_of_mem_stream hmem).resolve_right ?_
    rintro rfl
    exact hends ht
  · rintro - source' hnul' ⟨rest, hsource'⟩
    rw [ofSource_eq_stream hnul', List.append_assoc] at hsource'
    obtain ⟨d, hd, hrest⟩ := exists_passes (c := start (stream source'.toList)) hsource'.symm hends
    have hpeek : d.peek = e.found := by rw [peek, hrest]; rfl
    have hrefused' : FirstRefused source' ss e :=
      firstRefused_iff.2 ⟨ts, us, hbreaks, d, hd, hpeek⟩
    obtain ⟨ss', es, hparse⟩ := hrefused'.parse_eq
    refine ⟨hrefused', ?_, ?_⟩
    · rw [hparse]
      rfl
    · rw [hparse]
      exact List.prefix_append ss ss'

/-- A statement that is read, and an operand that is missing. -/
theorem parse_earliest_missing_operand :
    (nul ∉ "2; (x + ]".toList ∧
      (parse "2; (x + ]").2.head? = some (.noExpressionAt (.illegal ']'))) ∧
    ∃ ss w rest, ofSource "2; (x + ]" ++ [.endOfInput] = w ++ .illegal ']' :: rest ∧
      (∃ z accepted, nul ∉ accepted.toList ∧ ofSource accepted = w ++ z ∧
        (parse accepted).2 = []) ∧
      ∀ source', nul ∉ source'.toList → w ++ [.illegal ']'] <+: ofSource source' →
        FirstRefused source' ss (.noExpressionAt (.illegal ']')) ∧
          (parse source').2.head? = some (.noExpressionAt (.illegal ']')) ∧
          ss <+: (parse source').1 := by
  have hsource : nul ∉ "2; (x + ]".toList ∧
      (parse "2; (x + ]").2.head? = some (.noExpressionAt (.illegal ']')) := ⟨by decide, by cbv⟩
  refine ⟨hsource, ?_⟩
  obtain ⟨ss, w, rest, -, hsplit, haccepted, hagain⟩ := parse_earliest hsource.1 hsource.2
  exact ⟨ss, w, rest, hsplit, haccepted, hagain (by simp [ParseError.found])⟩

end TreeWalk
