/-
# Behind the end of the input

A NUL character in a text is read as an end of input.  The tokens of a text are those in front of
its first end, and the parser, too, stops in front of an end: it never looks behind one while it
reads a statement.

There is one exception.  A refused statement may have no end of its own, so that all tokens
behind the error are skipped and the end is met.  Then the end itself is taken for the last token
of the statement, and reading goes on behind it (`parse_append_nul`).
-/
import TreeWalk.Proofs.Composition

namespace TreeWalk

/-- The last statement was refused and has run out of tokens: what was read last is the end of the
input. -/
def Reading.RunsOut (r : Reading) : Prop :=
  r.errors ≠ [] ∧ r.cursor.last = .endOfInput

instance (r : Reading) : Decidable r.RunsOut :=
  inferInstanceAs (Decidable (_ ∧ _))

namespace Cursor

open Token

variable {c c' d : Cursor} {ts us vs : List Token} {e : ParseError} {last : Token} {n : Nat}

/-! ### Where a refused statement ends -/

/-- A parser that fails by reading an end of input has read the first one. -/
lemma Refuses.rest_of_last (h : c.Refuses e c') (hlast : c'.last = .endOfInput) :
    c'.rest = (c.rest.dropWhile (fun t => t ≠ .endOfInput)).tail := by
  cases h with
  | missing hts h => exact absurd hlast (h.last_ne hts)
  | @offending ts c₁ _ h =>
    rw [h.rest_eq, List.dropWhile_append_of_pos (forall_ne_endOfInput h.endOfInput_notMem),
      rest_next]
    obtain ⟨last, rest, n⟩ := c₁
    cases rest with
    | nil => rfl
    | cons t rest =>
      obtain rfl : t = .endOfInput := hlast
      rfl

lemma last_ended (h : last ≠ .endOfInput) : (ended last ts).last ≠ .endOfInput := by
  rw [ended]
  split
  · simp
  · exact h

/-- A refused statement ends in front of the end of the input, whatever stands behind that, or it
takes in the end. -/
lemma behind_append_end (hlast : last ≠ .endOfInput) (hts : .endOfInput ∉ ts) (vs : List Token) :
    (behind n last ts).last ≠ .endOfInput ∧
        behind n last (ts ++ .endOfInput :: vs) = (behind n last ts).append (.endOfInput :: vs) ∨
      behind n last ts = ⟨.endOfInput, [], 0⟩ ∧
        behind n last (ts ++ .endOfInput :: vs) = ⟨.endOfInput, vs, 0⟩ := by
  induction ts generalizing n last with
  | nil =>
    by_cases hends : last.endsRefused (last.depthBehind n)
    · refine Or.inl ?_
      rw [behind_of_ends hends, behind_of_ends hends]
      exact ⟨last_ended hlast, ended_append (by simp)⟩
    · refine Or.inr ⟨behind_nil hends, ?_⟩
      rw [List.nil_append, behind_cons hends]
      cases vs <;> rfl
  | cons t ts ih =>
    rw [List.mem_cons, not_or] at hts
    by_cases hends : last.endsRefused (last.depthBehind n)
    · refine Or.inl ?_
      rw [behind_of_ends hends, behind_of_ends hends]
      exact ⟨last_ended hlast, ended_append (by simp)⟩
    · rw [List.cons_append, behind_cons hends, behind_cons hends]
      exact ih (Ne.symm hts.1) hts.2

lemma recover_of_last (h : c.last = .endOfInput) : c.recover = ⟨.endOfInput, c.rest, 0⟩ := by
  have hends : (endOfInput).endsRefused ((endOfInput).depthBehind c.depth) := rfl
  rw [recover, h, behind_of_ends hends, ended, if_neg (by simp)]

/-- With an end of input put behind, reading goes on at the same place behind a refused statement,
or behind the end if there is no such place. -/
lemma Refuses.recover_append_end (h : c.Refuses e c')
    (h' : (c.append (.endOfInput :: vs)).Refuses e d)
    (hd : Parser.Follows (.endOfInput :: vs) (.error e : Except ParseError Statement) c' d)
    (hts : .endOfInput ∉ c.rest) :
    c'.recover.last ≠ .endOfInput ∧ d.recover = c'.recover.append (.endOfInput :: vs) ∨
      c'.recover = ⟨.endOfInput, [], 0⟩ ∧ d.recover = ⟨.endOfInput, vs, 0⟩ := by
  by_cases hlast : c'.last = .endOfInput
  · have hdlast : d.last = .endOfInput := by
      obtain rfl | ⟨-, -, -, rfl⟩ := hd
      · exact hlast
      · exact hlast
    have hall := forall_ne_endOfInput hts
    refine Or.inr ⟨?_, ?_⟩
    · rw [recover_of_last hlast, h.rest_of_last hlast, List.dropWhile_eq_nil_iff.2 hall]
      rfl
    · rw [recover_of_last hdlast, h'.rest_of_last hdlast, append,
        List.dropWhile_append_of_pos hall]
      rfl
  · have hsame : d = c'.append (.endOfInput :: vs) := hd.resolve_right fun hpast => hlast hpast.2.1
    have hrest : .endOfInput ∉ c'.rest := fun hmem =>
      hts ((Reading.Refuses.rest_suffix h).subset hmem)
    rw [hsame]
    exact behind_append_end hlast hrest vs

end Cursor

namespace Reading

open Token Cursor

variable {c c' : Cursor} {vs : List Token} {ss : Program} {es : List ParseError} {k m n : Nat}

/-! ### Statement after statement -/

@[simp] lemma cursor_cons (result : Except ParseError Statement) (calls : List Call)
    (r : Reading) : (Reading.cons result calls r).cursor = r.cursor := by
  cases result <;> rfl

/-- A reading stops where the steps that it is made of lead to. -/
lemma Visits.cursor_eq (h : Visits (.ofDepth k) c ss es c') (hc' : c'.peek = .endOfInput)
    (hk : c.rest.length ≤ k) (hn : c.rest.length ≤ n) :
    (Reading.from (.ofDepth k) n c).cursor = c' := by
  induction h generalizing n with
  | refl c => cases n <;> simp [Reading.from, hc']
  | read hne h _ ih =>
    have hlt := (Grammar.statement_sound (Parts.sound_ofDepth k) h).length_lt
    obtain ⟨n, rfl⟩ : ∃ m, n = m + 1 := ⟨n - 1, by omega⟩
    obtain ⟨hr, rfl⟩ := h
    simp only [Reading.from, hne, if_false, hr, cursor_cons]
    exact ih hc' (by omega) (by omega)
  | refused hne h _ ih =>
    have hlt := length_recover_lt hk hne h
    obtain ⟨n, rfl⟩ : ∃ m, n = m + 1 := ⟨n - 1, by omega⟩
    obtain ⟨hr, rfl⟩ := h
    simp only [Reading.from, hne, if_false, hr, cursor_cons]
    exact ih hc' (by omega) (by omega)

/-- The steps in a text are steps in front of an end of input, too.  They lead to the same place,
or behind the end if the last statement has run out of tokens. -/
lemma Visits.append_end (h : Visits (.ofDepth k) c ss es c') (hk : c.rest.length ≤ k)
    (hm : c.rest.length + (vs.length + 1) ≤ m) (hts : .endOfInput ∉ c.rest) :
    ∃ d, Visits (.ofDepth m) (c.append (.endOfInput :: vs)) ss es d ∧
      (d = c'.append (.endOfInput :: vs) ∧
          (es = [] ∧ c.last = .endOfInput ∨ c'.last ≠ .endOfInput) ∨
        d = ⟨.endOfInput, vs, 0⟩ ∧ es ≠ [] ∧ c'.last = .endOfInput) := by
  induction h with
  | refl c => exact ⟨_, .refl _, Or.inl ⟨rfl, by simp [em]⟩⟩
  | @read c c₁ _ s _ _ hne h _ ih =>
    have hholds := Grammar.statement_sound (Parts.sound_ofDepth k) h
    have hlt := hholds.length_lt
    obtain ⟨ts, hne', hpass, -⟩ := hholds.passes
    have hlast : c₁.last ≠ .endOfInput := hpass.last_ne hne'
    have hrest : .endOfInput ∉ c₁.rest := fun hmem => hts (by simp [hpass.rest_eq, hmem])
    obtain ⟨-, _, hend, rfl⟩ := Grammar.statement_carries
      (Parts.carries_ofDepth (.endOfInput :: vs) k m) hk hm _ _ h (Or.inl rfl)
    obtain ⟨d, hvisits, hd⟩ := ih (by omega) (by omega) hrest
    refine ⟨d, .read (Parser.peek_append_ne hne) hend hvisits, hd.imp_left fun hsame => ?_⟩
    exact ⟨hsame.1, Or.inr (hsame.2.resolve_left fun hstart => hlast hstart.2)⟩
  | @refused c c₁ _ e _ _ hne h h' ih =>
    have hlt := length_recover_lt hk hne h
    have hrefuses := Grammar.statement_refused (Parts.refused_ofDepth k) hk h
    obtain ⟨-, d₁, hend, hfollows⟩ := Grammar.statement_carries
      (Parts.carries_ofDepth (.endOfInput :: vs) k m) hk hm _ _ h (Or.inl rfl)
    have hrefuses' : (c.append (.endOfInput :: vs)).Refuses e d₁ := by
      refine Grammar.statement_refused (Parts.refused_ofDepth m) ?_ hend
      rw [Cursor.append, List.length_append]
      exact hm
    obtain ⟨hlast, hrecover⟩ | ⟨hrecover, hrecover'⟩ :=
      hrefuses.recover_append_end hrefuses' hfollows hts
    · have hrest : .endOfInput ∉ c₁.recover.rest := fun hmem =>
        hts (((behind_suffix _ _ _).trans (Refuses.rest_suffix hrefuses)).subset hmem)
      obtain ⟨d, hvisits, hd⟩ := ih (by omega) (by omega) hrest
      refine ⟨d, .refused (Parser.peek_append_ne hne) hend (hrecover ▸ hvisits), hd.imp ?_ ?_⟩
      · rintro ⟨hsame, hstop⟩
        exact ⟨hsame, Or.inr (hstop.resolve_left fun hstart => hlast hstart.2)⟩
      · rintro ⟨hpast, -, hend'⟩
        exact ⟨hpast, by simp, hend'⟩
    · -- the statement has run out of tokens, so no other one follows
      rw [hrecover] at h'
      cases h' with
      | refl =>
        exact ⟨d₁.recover, .refused (Parser.peek_append_ne hne) hend (.refl _),
          Or.inr ⟨hrecover', by simp, rfl⟩⟩
      | read hne => exact absurd rfl hne
      | refused hne => exact absurd rfl hne

end Reading

/-! ### Sources -/

open Token

lemma Token.stream_append_nul_append (a b : String) :
    stream (a ++ "\x00" ++ b).toList = stream a.toList ++ endOfInput :: stream b.toList := by
  rw [String.toList_append, String.toList_append, List.append_assoc]
  exact stream_append_nul _ _

lemma Token.ofSource_append_nul {a : String} (h : nul ∉ a.toList) (b : String) :
    ofSource (a ++ "\x00" ++ b) = ofSource a := by
  rw [ofSource_eq_stream h, ofSource, upToEnd_fst, stream_append_nul_append,
    List.takeWhile_append_of_pos (forall_ne_endOfInput (endOfInput_notMem_stream h))]
  simp

open Cursor Reading in
/-- Reading stops at a NUL character, unless the text in front of it has run out of tokens; then
the text behind it is read as well. -/
theorem parse_append_nul_eq {a : String} (h : nul ∉ a.toList) (b : String) :
    parse (a ++ "\x00" ++ b) = if (Reading.ofText a.toList).RunsOut then
      ((parse a).1 ++ (parse b).1, (parse a).2 ++ (parse b).2) else parse a := by
  have htokens := stream_append_nul_append a b
  have hend := endOfInput_notMem_stream h
  obtain ⟨ca, hvisits, hca⟩ := parse_eq_iff.1 (rfl : parse a = ((parse a).1, (parse a).2))
  have hcursor : (Reading.ofText a.toList).cursor = ca :=
    hvisits.cursor_eq hca (Nat.le_refl _) (Nat.le_refl _)
  have hle : (stream a.toList).length + ((stream b.toList).length + 1) ≤
      (stream (a ++ "\x00" ++ b).toList).length := by
    rw [htokens, List.length_append, List.length_cons]
  obtain ⟨d, hfirst, ⟨rfl, hstop⟩ | ⟨rfl, hout⟩⟩ :=
    hvisits.append_end (Nat.le_refl _) hle hend
  · have hnot : ¬ (Reading.ofText a.toList).RunsOut := by
      rintro ⟨herrors, hlast⟩
      rw [hcursor] at hlast
      rcases hstop with ⟨hnil, -⟩ | hne
      · exact herrors hnil
      · exact hne hlast
    rw [if_neg hnot]
    refine parse_eq_iff.2 ⟨ca.append (endOfInput :: stream b.toList), ?_, ?_⟩
    · rw [htokens]
      exact hfirst
    · have hbehind : AtEnd (endOfInput :: stream b.toList) := rfl
      exact (Parser.peek_append (Or.inl hbehind)).trans hca
  · rw [if_pos (show (Reading.ofText a.toList).RunsOut from ⟨hout.1, hcursor ▸ hout.2⟩)]
    obtain ⟨cb, hvisits', hcb⟩ := parse_eq_iff.1 (rfl : parse b = ((parse b).1, (parse b).2))
    have hle' : (stream b.toList).length ≤ (stream (a ++ "\x00" ++ b).toList).length := by omega
    refine parse_eq_iff.2 ⟨cb, ?_, hcb⟩
    rw [htokens]
    exact hfirst.trans (hvisits'.ofDepth (Nat.le_refl _) hle')

/-- A NUL character ends a text for the parser as it does for its tokens, unless the text in front
of it has run out of tokens and there is something to read behind. -/
theorem parse_append_nul {a : String} (h : nul ∉ a.toList) (b : String) :
    ofSource (a ++ "\x00" ++ b) = ofSource a ∧
      (parse (a ++ "\x00" ++ b) = parse a ↔
        ¬ (Reading.ofText a.toList).RunsOut ∨ parse b = ([], [])) := by
  refine ⟨ofSource_append_nul h b, ?_⟩
  rw [parse_append_nul_eq h]
  split
  · next hout =>
    rw [or_iff_right (not_not.2 hout), Prod.ext_iff, Prod.ext_iff]
    simp
  · next hout => simp [hout]

theorem parse_append_nul_of_binding :
    nul ∉ "let x = 1".toList ∧
      ofSource ("let x = 1" ++ "\x00" ++ "2") = ofSource "let x = 1" ∧
      (parse ("let x = 1" ++ "\x00" ++ "2") = parse "let x = 1" ↔
        ¬ (Reading.ofText "let x = 1".toList).RunsOut ∨ parse "2" = ([], [])) :=
  (fun h => ⟨h, parse_append_nul h "2"⟩) (by decide)

/-- The operand that is missing is looked for at the end, which is then taken for the last token of
the statement. -/
theorem parse_behind_missing_operand :
    nul ∉ "1 + ".toList ∧
      parse ("1 + " ++ "\x00" ++ " 2") =
        ([.expression (.integer 2)], [.noExpressionAt .endOfInput]) ∧
      parse ("1 + " ++ "\x00" ++ " 2") ≠ parse "1 + " := by
  have hbehind : parse ("1 + " ++ "\x00" ++ " 2") =
      ([.expression (.integer 2)], [.noExpressionAt .endOfInput]) := by cbv
  have hfront : parse "1 + " = ([], [.noExpressionAt .endOfInput]) := by cbv
  refine ⟨by decide, hbehind, ?_⟩
  rw [hbehind, hfront]
  simp

end TreeWalk
