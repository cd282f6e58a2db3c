/-
# Where reading goes on behind a refused statement

A refused statement should end with the first token, from the one read last on, that is the end
of the input, or a semicolon outside of every block that the statement opened, or the brace that
closes the last of them.  Braces are to be counted from the beginning of the statement.

The parser counts the blocks that it enters and leaves, and when it fails it counts the braces from
the token read last on.  So a brace that closes a block is counted twice if a token is missing
right behind it.  That happens in one place, where an expression in parentheses ends with a block
and `)` is missing.  `recover_eq_behindToken_iff` says when this makes a difference: when the
statement has another block open there, and all but one of the blocks that are open are closed
later on.
-/
import Mathlib
import TreeWalk.Proofs.Reading

namespace TreeWalk

namespace Token

/-- The number of open blocks behind the token with the index `j`. -/
def depthAt (ts : List Token) (j : Nat) : Nat :=
  depthAfter 0 (ts.take (j + 1))

/-- A refused statement may end with the token with the index `j`: an end of input, or a semicolon
or a closing brace behind which no block is open. -/
def MayEnd (ts : List Token) (j : Nat) : Prop :=
  ts.getD j .endOfInput = .endOfInput ∨
    (ts.getD j .endOfInput = .symbol .semicolon ∨ ts.getD j .endOfInput = .symbol .rightBrace) ∧
      depthAt ts j = 0

/-- From the index `i` on, the first token that a refused statement may end with has the
index `j`. -/
def EndsAt (ts : List Token) (i j : Nat) : Prop :=
  i ≤ j ∧ MayEnd ts j ∧ ∀ k < j, i ≤ k → ¬ MayEnd ts k

instance (ts : List Token) (j : Nat) : Decidable (MayEnd ts j) :=
  inferInstanceAs (Decidable (_ ∨ _))

instance (ts : List Token) (i j : Nat) : Decidable (EndsAt ts i j) :=
  inferInstanceAs (Decidable (_ ∧ _ ∧ _))

variable {ts : List Token} {i j : Nat}

lemma depthAt_eq (ts : List Token) (i : Nat) :
    depthAt ts i = (ts.getD i .endOfInput).depthBehind (depthAfter 0 (ts.take i)) := by
  rw [depthAt, List.take_add_one, depthAfter_append]
  cases h : ts[i]? with
  | none => simp [h, depthBehind]
  | some t => simp [h]

lemma mayEnd_iff : MayEnd ts i ↔ (ts.getD i .endOfInput).endsRefused (depthAt ts i) := by
  unfold MayEnd endsRefused
  split <;> simp_all

lemma EndsAt.unique {j' : Nat} (h : EndsAt ts i j) (h' : EndsAt ts i j') : j = j' := by
  obtain ⟨hle, hend, hleast⟩ := h
  obtain ⟨hle', hend', hleast'⟩ := h'
  rcases Nat.lt_trichotomy j j' with hlt | heq | hlt
  · exact absurd hend (hleast' j hlt hle)
  · exact heq
  · exact absurd hend' (hleast j' hlt hle')

lemma endsAt_self (h : MayEnd ts i) : EndsAt ts i i :=
  ⟨Nat.le_refl i, h, fun _ hlt hle => absurd hlt (Nat.not_lt.2 hle)⟩

lemma EndsAt.of_succ (h : EndsAt ts (i + 1) j) (hi : ¬ MayEnd ts i) : EndsAt ts i j := by
  obtain ⟨hle, hend, hleast⟩ := h
  refine ⟨by omega, hend, fun k hkj hik => ?_⟩
  rcases Nat.eq_or_lt_of_le hik with rfl | hlt
  · exact hi
  · exact hleast k hkj hlt

end Token

namespace Cursor

open Token

variable {ts : List Token} {i j d : Nat}

/-- The place behind the token with the index `j` among those that stand at `c`, where a semicolon
behind a closing brace belongs to the brace. -/
def behindToken (c : Cursor) (j : Nat) : Cursor :=
  ended (c.rest.getD j .endOfInput) (c.rest.drop (j + 1))

/-- The end of a refused statement, searched for from the index `i` on with `d` blocks open. -/
def search (ts : List Token) (d i : Nat) : Cursor :=
  behind d (ts.getD i .endOfInput) (ts.drop (i + 1))

lemma search_of_ends
    (h : (ts.getD i .endOfInput).endsRefused ((ts.getD i .endOfInput).depthBehind d)) :
    search ts d i = ended (ts.getD i .endOfInput) (ts.drop (i + 1)) :=
  behind_of_ends h

lemma search_of_not_ends
    (h : ¬ (ts.getD i .endOfInput).endsRefused ((ts.getD i .endOfInput).depthBehind d)) :
    search ts d i = search ts ((ts.getD i .endOfInput).depthBehind d) (i + 1) := by
  by_cases hi : i + 1 < ts.length
  · rw [search, List.drop_eq_getElem_cons hi, behind_cons h, search, List.getD_eq_getElem _ _ hi]
  · have hdrop : ts.drop (i + 1) = [] := List.drop_eq_nil_of_le (Nat.not_lt.1 hi)
    have hget : ts.getD (i + 1) .endOfInput = .endOfInput :=
      List.getD_eq_default _ _ (Nat.not_lt.1 hi)
    rw [search, hdrop, behind_nil h, search, hget, List.drop_eq_nil_of_le (by omega),
      behind_of_ends rfl]

/-- With all blocks counted, the search finds where the statement ends. -/
lemma exists_endsAt_search (ts : List Token) (i : Nat) :
    ∃ j, EndsAt ts i j ∧ search ts (depthAfter 0 (ts.take i)) i =
      ended (ts.getD j .endOfInput) (ts.drop (j + 1)) := by
  induction hn : ts.length - i generalizing i with
  | zero =>
    have hget : ts.getD i .endOfInput = .endOfInput := List.getD_eq_default _ _ (by omega)
    exact ⟨i, endsAt_self (Or.inl hget), search_of_ends (by rw [hget]; rfl)⟩
  | succ n ih =>
    by_cases hi : MayEnd ts i
    · refine ⟨i, endsAt_self hi, search_of_ends ?_⟩
      rw [← depthAt_eq]
      exact mayEnd_iff.1 hi
    · obtain ⟨j, hj, hsearch⟩ := ih (i + 1) (by omega)
      refine ⟨j, hj.of_succ hi, ?_⟩
      rw [mayEnd_iff, depthAt_eq] at hi
      rw [search_of_not_ends hi, ← depthAt_eq]
      exact hsearch

/-- A search takes the token that it begins with. -/
lemma search_ne {t : Token} {e : Nat} (ht : t ≠ .endOfInput) :
    ⟨t, ts.drop i, e⟩ ≠ search ts d i := by
  intro h
  by_cases hi : i < ts.length
  · have hle := (behind_suffix d (ts.getD i .endOfInput) (ts.drop (i + 1))).length_le
    have hrest : ts.drop i = (search ts d i).rest := congrArg Cursor.rest h
    rw [search] at hrest
    rw [← hrest, List.length_drop, List.length_drop] at hle
    omega
  · have hget : ts.getD i .endOfInput = .endOfInput := List.getD_eq_default _ _ (Nat.not_lt.1 hi)
    rw [search_of_ends (by rw [hget]; rfl), hget] at h
    exact ht (congrArg Cursor.last h)

/-- With one block open behind it, a closing brace does not end a statement. -/
lemma ended_ne_search :
    ended (.symbol .rightBrace) (ts.drop (i + 1)) ≠ search ts 1 (i + 1) := by
  rw [ended]
  split
  · next hsemi =>
    have hget : ts.getD (i + 1) .endOfInput = .symbol .semicolon := by
      rw [List.head?_drop] at hsemi
      rw [List.getD_eq_getElem?_getD, hsemi.2]
      rfl
    -- this semicolon is inside the block, and the search goes past it
    rw [search_of_not_ends (by rw [hget]; decide), hget, List.tail_drop]
    exact search_ne (by simp)
  · exact search_ne (by simp)

lemma not_endsRefused {t : Token} (ht : t ≠ .endOfInput) (hd : 0 < d) : ¬ t.endsRefused d := by
  unfold endsRefused
  split <;> simp_all [Nat.pos_iff_ne_zero]

/-- With one block too few counted, the search ends where all but one of the blocks are closed. -/
lemma search_eq_iff (hts : .endOfInput ∉ ts) (hd : 0 < d) (h : depthAfter 0 (ts.take i) = d + 1) :
    search ts d i = search ts (d + 1) i ↔ ¬ ∃ j, i ≤ j ∧ j < ts.length ∧ depthAt ts j = 1 := by
  induction hn : ts.length - i generalizing i d with
  | zero =>
    have hget : ts.getD i .endOfInput = .endOfInput := List.getD_eq_default _ _ (by omega)
    rw [search_of_ends (by rw [hget]; rfl), search_of_ends (by rw [hget]; rfl)]
    refine iff_of_true rfl ?_
    rintro ⟨j, hij, hj, -⟩
    omega
  | succ n ih =>
    obtain ⟨t, hget⟩ : ∃ t, ts.getD i .endOfInput = t := ⟨_, rfl⟩
    have ht : t ≠ .endOfInput := by
      rw [← hget, List.getD_eq_getElem _ _ (by omega)]
      exact fun he => hts (he ▸ List.getElem_mem _)
    have hone := depthBehind_succ hd t
    have hat : depthAt ts i = t.depthBehind d + 1 := by rw [depthAt_eq, hget, h, hone]
    have hlong : search ts (d + 1) i = search ts (t.depthBehind d + 1) (i + 1) := by
      rw [search_of_not_ends, hget, hone]
      rw [hget, hone]
      exact not_endsRefused ht (Nat.succ_pos _)
    rcases Nat.eq_zero_or_pos (t.depthBehind d) with hzero | hpos
    · -- the last block but one is closed here, and the search with one block too few ends
      have hbrace := eq_rightBrace_of_depthBehind hd hzero
      have hshort : search ts d i = ended (.symbol .rightBrace) (ts.drop (i + 1)) := by
        rw [search_of_ends (by rw [hget, hzero, hbrace]; rfl), hget, hbrace]
      rw [hshort, hlong, hzero]
      refine iff_of_false ended_ne_search (not_not.2 ⟨i, Nat.le_refl i, by omega, ?_⟩)
      rw [hat, hzero]
    · have hshort : search ts d i = search ts (t.depthBehind d) (i + 1) := by
        rw [search_of_not_ends, hget]
        rw [hget]
        exact not_endsRefused ht hpos
      rw [hshort, hlong, ih hpos hat (by omega), not_iff_not]
      constructor
      · rintro ⟨j, hij, hj⟩
        exact ⟨j, by omega, hj⟩
      · rintro ⟨j, hij, hj, hone⟩
        refine ⟨j, ?_, hj, hone⟩
        rcases Nat.eq_or_lt_of_le hij with rfl | hlt
        · omega
        · exact hlt

/-! ### The place of an error -/

variable {c c' : Cursor} {e : ParseError}

/-- The token read last at `c'` has the index `i` among those that stand at `c`, or the end of the
input was read, and `i` is the number of those tokens. -/
def ReadsLast (c : Cursor) (i : Nat) (c' : Cursor) : Prop :=
  i ≤ c.rest.length ∧ c.rest.getD i .endOfInput = c'.last ∧ c.rest.drop (i + 1) = c'.rest

/-- `)` is missing behind the closing brace with the index `i`, another block is open there, and
only one is open behind this brace or a later token. -/
def Miscounts (c : Cursor) (i : Nat) (e : ParseError) : Prop :=
  c.rest.getD i .endOfInput = .symbol .rightBrace ∧ (∃ t, e = .expected (.symbol .rightParen) t) ∧
    0 < depthAt c.rest i ∧ ∃ j, i ≤ j ∧ j < c.rest.length ∧ depthAt c.rest j = 1

lemma ReadsLast.recover_eq (h : c.ReadsLast i c') : c'.recover = search c.rest c'.depth i := by
  rw [recover, search, h.2.1, h.2.2]

/-- The index of a token is the number of tokens in front of it. -/
lemma Passes.readsLast {c₁ : Cursor} (h : c.Passes ts c₁) (d : Nat) :
    c.ReadsLast ts.length ⟨c₁.peek, c₁.rest.tail, d⟩ ∧ c.rest.take ts.length = ts := by
  have hrest := h.rest_eq
  refine ⟨⟨?_, ?_, ?_⟩, ?_⟩
  · rw [hrest, List.length_append]
    omega
  · rw [hrest, List.getD_append_right _ _ _ _ (Nat.le_refl _), Nat.sub_self, peek]
    cases c₁.rest <;> rfl
  · rw [hrest, List.drop_length_add_append, List.drop_one]
  · rw [hrest, List.take_left]

/-- The blocks that are counted where a statement is refused. -/
lemma Refuses.exists_readsLast (h : c.Refuses e c') (hc : c.depth = 0) :
    ∃ i, c.ReadsLast i c' ∧
      (c'.depth = depthAfter 0 (c.rest.take i) ∧ ¬ c.Miscounts i e ∨
        c'.depth = depthAt c.rest i ∧ c'.last = .symbol .rightBrace ∧
          ∃ t, e = .expected (.symbol .rightParen) t) := by
  cases h with
  | @missing ts _ wanted hts h hne hsemi hopen hclose =>
    obtain ⟨us, t, rfl⟩ := (List.eq_nil_or_concat ts).resolve_left hts
    rw [List.concat_eq_append] at h
    obtain ⟨c₁, hus, rfl, -, rfl⟩ := passes_append.1 h
    obtain ⟨hreads, htake⟩ := hus.readsLast (c₁.pass.depth)
    have hdepth : c₁.depth = depthAfter 0 (c.rest.take us.length) := by
      rw [htake, ← hc, hus.depth_eq]
    refine ⟨us.length, hreads, ?_⟩
    -- the parser has counted the token read last if it is a brace, which then closed a block
    by_cases hbrace : c₁.peek = .symbol .rightBrace
    · refine Or.inr ⟨?_, hbrace, _, by rw [hclose hbrace]⟩
      rw [depthAt_eq, hreads.2.1, ← hdepth]
      rfl
    · refine Or.inl ⟨?_, fun h => hbrace (hreads.2.1.symm.trans h.1)⟩
      exact (depthBehind_of_ne hopen hbrace _).trans hdepth
  | @offending ts c₁ _ h he hparen hdepth hlast =>
    obtain ⟨hreads, htake⟩ := h.readsLast c₁.depth
    refine ⟨ts.length, hreads, Or.inl ⟨?_, ?_⟩⟩
    · rw [htake, ← hc]
      exact h.depth_eq
    · rintro ⟨-, ⟨t, ht⟩, -⟩
      exact hparen t ht

theorem Refuses.recover_eq_iff (h : c.Refuses e c') (hc : c.depth = 0)
    (hts : .endOfInput ∉ c.rest) :
    ∃ i, c.ReadsLast i c' ∧
      ((∃ j, EndsAt c.rest i j ∧ c'.recover = c.behindToken j) ↔ ¬ c.Miscounts i e) := by
  obtain ⟨i, hreads, hcount⟩ := h.exists_readsLast hc
  obtain ⟨j, hj, hsearch⟩ := exists_endsAt_search c.rest i
  refine ⟨i, hreads, ?_⟩
  have hiff : (∃ j, EndsAt c.rest i j ∧ c'.recover = c.behindToken j) ↔
      search c.rest c'.depth i = search c.rest (depthAfter 0 (c.rest.take i)) i := by
    rw [hsearch, hreads.recover_eq]
    constructor
    · rintro ⟨j', hj', hrecover⟩
      rw [hrecover, hj.unique hj']
      rfl
    · intro hrecover
      exact ⟨j, hj, hrecover⟩
  rw [hiff]
  rcases hcount with ⟨hdepth, hright⟩ | ⟨hdepth, hbrace, hparen⟩
  · rw [hdepth]
    exact iff_of_true rfl hright
  · have hget : c.rest.getD i .endOfInput = .symbol .rightBrace := hreads.2.1.trans hbrace
    have hat : depthAt c.rest i = depthAfter 0 (c.rest.take i) - 1 := by rw [depthAt_eq, hget]; rfl
    rw [hdepth]
    rcases Nat.eq_zero_or_pos (depthAt c.rest i) with hzero | hpos
    · -- the brace closes the last block, and both counts stop at it
      refine iff_of_true ?_ fun hmiscounts => Nat.lt_irrefl 0 (hzero ▸ hmiscounts.2.2.1)
      rw [search_of_ends, search_of_ends]
      · rw [← depthAt_eq, hzero, hget]
        rfl
      · rw [hzero, hget]
        rfl
    · rw [show depthAfter 0 (c.rest.take i) = depthAt c.rest i + 1 by omega,
        search_eq_iff hts hpos (by omega), not_iff_not]
      exact ⟨fun hone => ⟨hget, hparen, hpos, hone⟩, fun hmiscounts => hmiscounts.2.2.2⟩

end Cursor

/-! ### Sources -/

open Cursor in
/-- Behind each statement of a source text that is refused, reading goes on where the statement
should end, unless braces are miscounted. -/
theorem recover_eq_behindToken_iff {source : String} {ss : Program} {es : List ParseError}
    {c c' : Cursor} {e : ParseError} (hnul : Token.nul ∉ source.toList)
    (hvisits : Reading.Visits (.ofSource source) (.start (Token.stream source.toList)) ss es c)
    (h : (Grammar.statement (.ofSource source)).Ends c (.error e) c') :
    ∃ i, c.ReadsLast i c' ∧
      ((∃ j, Token.EndsAt c.rest i j ∧ c'.recover = c.behindToken j) ↔ ¬ c.Miscounts i e) := by
  obtain ⟨hdepth, hsuffix⟩ := hvisits.depth_eq (Nat.le_refl _) rfl
  have hrefuses := Grammar.statement_refused (Parts.refused_ofDepth _) hsuffix.length_le h
  exact Refuses.recover_eq_iff hrefuses hdepth fun hmem =>
    Token.endOfInput_notMem_stream hnul (hsuffix.subset hmem)

/-- An error in a block: reading goes on behind the semicolon at the end of the statement. -/
theorem recover_in_conditional :
    (Token.nul ∉ "if (x) \x7b 1 + ; 2 \x7d; 3".toList ∧
      (Grammar.statement (.ofSource "if (x) \x7b 1 + ; 2 \x7d; 3")).Ends
        (.start (Token.stream "if (x) \x7b 1 + ; 2 \x7d; 3".toList))
        (.error (.noExpressionAt (.symbol .semicolon)))
        ⟨.symbol .semicolon, [.int "2", .symbol .rightBrace, .symbol .semicolon, .int "3"], 1⟩) ∧
    ∃ i, (Cursor.start (Token.stream "if (x) \x7b 1 + ; 2 \x7d; 3".toList)).ReadsLast i
        ⟨.symbol .semicolon, [.int "2", .symbol .rightBrace, .symbol .semicolon, .int "3"], 1⟩ ∧
      ((∃ j, Token.EndsAt (Token.stream "if (x) \x7b 1 + ; 2 \x7d; 3".toList) i j ∧
          ⟨.symbol .semicolon, [.int "3"], 0⟩ =
            (Cursor.start (Token.stream "if (x) \x7b 1 + ; 2 \x7d; 3".toList)).behindToken j) ↔
        ¬ (Cursor.start (Token.stream "if (x) \x7b 1 + ; 2 \x7d; 3".toList)).Miscounts i
          (.noExpressionAt (.symbol .semicolon))) := by
  refine (fun h => ⟨h, recover_eq_behindToken_iff h.1 (.refl _) h.2⟩) ⟨by decide, by cbv, by cbv⟩

/-- The brace that closes the inner block is counted twice when `)` is missing behind it, and
reading goes on inside the outer block. -/
theorem recover_in_open_block :
    ∃ c', (Grammar.statement (.ofSource "\x7b (\x7b 1 \x7d 5) \x7d")).Ends
        (.start (Token.stream "\x7b (\x7b 1 \x7d 5) \x7d".toList))
        (.error (.expected (.symbol .rightParen) (.int "5"))) c' ∧
      (Cursor.start (Token.stream "\x7b (\x7b 1 \x7d 5) \x7d".toList)).ReadsLast 4 c' ∧
      Token.EndsAt (Token.stream "\x7b (\x7b 1 \x7d 5) \x7d".toList) 4 7 ∧
      c'.recover ≠
        (Cursor.start (Token.stream "\x7b (\x7b 1 \x7d 5) \x7d".toList)).behindToken 7 := by
  have htokens : Token.stream "\x7b (\x7b 1 \x7d 5) \x7d".toList =
      [.symbol .leftBrace, .symbol .leftParen, .symbol .leftBrace, .int "1", .symbol .rightBrace,
        .int "5", .symbol .rightParen, .symbol .rightBrace] := by cbv
  refine ⟨⟨.symbol .rightBrace, [.int "5", .symbol .rightParen, .symbol .rightBrace], 1⟩,
    ⟨by cbv, by cbv⟩, ?_⟩
  rw [htokens]
  refine ⟨⟨by decide, rfl, rfl⟩, by decide, by decide⟩

end TreeWalk
