/-
# Texts that stand in a row

A text that ends with a semicolon outside of every block is read by itself, whatever text is put
behind it: first come the statements and the errors of the one, and then those of the other
(`parse_append`).  Neither of them has to be free of errors.

The reason is that the blocks the parser counts are never more than those the braces open.  So
at the semicolon the parser is outside of every block, too: a statement that was read ends there
at the latest, and so does one that was refused.
-/
import Mathlib
import TreeWalk.Proofs.Extension
import TreeWalk.Proofs.Form.Complete
import TreeWalk.Proofs.Reading

namespace TreeWalk

namespace Token

/-- The tokens end with a semicolon, if there are any, and no block is open behind them. -/
def Closed (ts : List Token) : Prop :=
  (∀ t ∈ ts.getLast?, t = .symbol .semicolon) ∧ depthAfter 0 ts = 0

lemma Closed.suffix {ts us : List Token} (h : Closed us) (hsuffix : ts <:+ us) : Closed ts := by
  obtain ⟨pre, rfl⟩ := hsuffix
  obtain ⟨hlast, hdepth⟩ := h
  constructor
  · intro t ht
    exact hlast t (by simp [List.getLast?_append, Option.mem_def.1 ht])
  · rw [depthAfter_append] at hdepth
    exact Nat.le_zero.1 (hdepth ▸ depthAfter_mono (Nat.zero_le _) ts)

end Token

namespace Cursor

open Token

variable {c c' : Cursor} {ts us : List Token} {e : ParseError} {s : Statement} {d : Nat}
  {last : Token}

/-! ### Statements that are read -/

lemma pass_append (h : c.rest ≠ []) : (c.append us).pass = c.pass.append us := by
  obtain ⟨last, rest, d⟩ := c
  cases rest with
  | nil => exact absurd rfl h
  | cons t rest => rfl

lemma Passes.append (h : c.Passes ts c') (us : List Token) :
    (c.append us).Passes ts (c'.append us) := by
  induction ts generalizing c with
  | nil =>
    rw [passes_nil.1 h]
    exact .refl _
  | cons t ts ih =>
    obtain ⟨rfl, ht, hpass⟩ := h
    have hrest := rest_ne_nil ht
    refine ⟨Parser.peek_append (Or.inr hrest), ht, ?_⟩
    rw [pass_append hrest]
    exact ih hpass

/-- A statement in front of a semicolon stands there in a longer text, too. -/
lemma HoldsStatement.append (h : c.HoldsStatement s c') (hc : Closed c.rest) (us : List Token) :
    (c.append us).HoldsStatement s (c'.append us) := by
  obtain ⟨o, ts, c₁, hform, hpass, hstop, rfl⟩ := h
  -- no statement ends with the semicolon, so a token stands behind this one
  have hrest : c₁.rest ≠ [] := by
    intro hnil
    obtain ⟨t, hlast, ht⟩ := hform.exists_last_statement
    have heq : c.rest = ts := by rw [hpass.rest_eq, hnil, List.append_nil]
    have hsemi := hc.1 t (heq ▸ hlast)
    rw [hsemi] at ht
    cases ht
  have hpeek : (c₁.append us).peek = c₁.peek := Parser.peek_append (Or.inr hrest)
  exact ⟨o, ts, c₁.append us, hform, hpass.append us, hpeek.symm ▸ hstop,
    (Parser.skipping_append (Or.inr hrest)).symm⟩

/-! ### Statements that are refused -/

lemma getLast?_append_of_ne_nil (h : us ≠ []) : (ts ++ us).getLast? = us.getLast? := by
  rw [List.getLast?_append, List.getLast?_eq_some_getLast h]
  rfl

lemma ended_append
    (h : ts = [] → last = .symbol .rightBrace → us.head? ≠ some (.symbol .semicolon)) :
    ended last (ts ++ us) = (ended last ts).append us := by
  rw [ended, ended]
  cases ts with
  | nil =>
    rw [List.nil_append, if_neg fun hc => h rfl hc.1 hc.2, if_neg (by simp)]
    rfl
  | cons t ts =>
    rw [List.cons_append, List.head?_cons, List.head?_cons]
    split <;> rfl

/-- A refused statement in front of a semicolon ends there at the latest. -/
lemma behind_append (hdepth : depthAfter d (last :: ts) = 0)
    (hlast : (last :: ts).getLast? = some (.symbol .semicolon)) (us : List Token) :
    behind d last (ts ++ us) = (behind d last ts).append us := by
  induction ts generalizing d last with
  | nil =>
    obtain rfl : last = .symbol .semicolon := by simpa using hlast
    obtain rfl : d = 0 := hdepth
    have hends : (symbol .semicolon).endsRefused ((symbol .semicolon).depthBehind 0) := rfl
    rw [behind_of_ends hends, behind_of_ends hends]
    exact ended_append (by simp)
  | cons t ts ih =>
    by_cases hends : last.endsRefused (last.depthBehind d)
    · rw [behind_of_ends hends, behind_of_ends hends]
      exact ended_append (by simp)
    · rw [List.cons_append, behind_cons hends, behind_cons hends]
      exact ih hdepth (by simpa using hlast)

/-- A statement that is refused in front of a semicolon outside of every block is not refused for
the end of the input, and no more blocks are counted than the braces open. -/
lemma Refuses.closed (h : c.Refuses e c') (hc : Closed c.rest) (hdepth : c.depth = 0)
    (hrest : c.rest ≠ []) (hts : .endOfInput ∉ c.rest) :
    e.found ≠ .endOfInput ∧ (c'.last :: c'.rest).getLast? = some (.symbol .semicolon) ∧
      depthAfter c'.depth (c'.last :: c'.rest) = 0 := by
  have hlast : c.rest.getLast? = some (.symbol .semicolon) := by
    have hsome := List.getLast?_eq_some_getLast hrest
    rw [hsome, hc.1 _ hsome]
  cases h with
  | @missing ts _ wanted hne h hwanted hsemi hopen hclose =>
    have hrest' := h.rest_eq
    -- nothing is missing behind a semicolon
    have hne' : c'.rest ≠ [] := by
      intro hnil
      rw [hnil, List.append_nil] at hrest'
      exact hsemi (by rw [h.last_eq, List.getLastD_eq_getLast?, ← hrest', hlast]; rfl)
    refine ⟨?_, ?_, ?_⟩
    · intro hfound
      have hend : c'.peek = .endOfInput := hfound
      obtain ⟨t, us, hcons⟩ := List.exists_cons_of_ne_nil hne'
      rw [peek, hcons] at hend
      obtain rfl : t = .endOfInput := hend
      exact hts (by simp [hrest', hcons])
    · rw [← List.singleton_append, getLast?_append_of_ne_nil hne', ← hlast, hrest',
        getLast?_append_of_ne_nil hne']
    · have hle := depthBehind_le hopen c'.depth
      have hzero : depthAfter c'.depth c'.rest = 0 := by
        rw [h.depth_eq, ← depthAfter_append, ← hrest', hdepth, hc.2]
      exact Nat.le_zero.1 (hzero ▸ depthAfter_mono hle c'.rest)
  | @offending ts c₁ _ h he hparen hdepth' hsemi =>
    have hrest' := h.rest_eq
    -- an end of input that offends behind a semicolon stands inside a block
    have hne : c₁.rest ≠ [] := by
      intro hnil
      rw [hnil, List.append_nil] at hrest'
      have hsemi' : c₁.last = .symbol .semicolon := by
        rw [h.last_eq, List.getLastD_eq_getLast?, ← hrest', hlast]
        rfl
      have hlt := hsemi (hrest' ▸ hrest) hsemi'
      rw [h.depth_eq, hdepth, ← hrest', hc.2] at hlt
      exact Nat.lt_irrefl 0 hlt
    obtain ⟨t, us, hcons⟩ := List.exists_cons_of_ne_nil hne
    have hpeek : c₁.peek = t := by rw [peek, hcons]; rfl
    have hlist : c₁.next.last :: c₁.next.rest = c₁.rest := by
      rw [last_next, rest_next, hpeek, hcons]
      rfl
    refine ⟨?_, ?_, ?_⟩
    · rw [he, hpeek]
      rintro rfl
      exact hts (by simp [hrest', hcons])
    · rw [hlist, ← hlast, hrest', getLast?_append_of_ne_nil hne]
    · rw [hlist, depth_next, h.depth_eq, ← depthAfter_append, ← hrest', hdepth]
      exact hc.2

end Cursor

namespace Reading

open Token Cursor

variable {c c' : Cursor} {us : List Token} {ss : Program} {es : List ParseError} {k m : Nat}

/-! ### Steps in a longer text -/

/-- The bound on the depth of parts makes no difference. -/
lemma statement_ofDepth {r : Except ParseError Statement} (hk : c.rest.length ≤ k)
    (hm : c.rest.length ≤ m) (h : (Grammar.statement (.ofDepth k : Parts)).Ends c r c') :
    (Grammar.statement (.ofDepth m : Parts)).Ends c r c' := by
  have hcarries := Grammar.statement_carries (Parts.carries_ofDepth [] k m) hk hm
  have hsettled : Parser.Settled [] r c' := by
    cases r <;> exact Or.inl rfl
  obtain ⟨-, d, hend, hfollows⟩ := hcarries r c' h hsettled
  rwa [append_nil, hfollows.eq_of_nil] at hend

lemma Visits.ofDepth (h : Visits (.ofDepth k) c ss es c') (hk : c.rest.length ≤ k)
    (hm : c.rest.length ≤ m) : Visits (.ofDepth m) c ss es c' := by
  induction h with
  | refl c => exact .refl c
  | read hne h _ ih =>
    have hlt := (Grammar.statement_sound (Parts.sound_ofDepth k) h).length_lt
    exact .read hne (statement_ofDepth hk hm h) (ih (by omega) (by omega))
  | refused hne h _ ih =>
    have hlt := length_recover_lt hk hne h
    exact .refused hne (statement_ofDepth hk hm h) (ih (by omega) (by omega))

/-- The token in front of a statement makes no difference. -/
lemma statement_last (k : Nat) (last last' : Token) (rest : List Token) (d : Nat) :
    Grammar.statement (.ofDepth (k + 1) : Parts) ⟨last, rest, d⟩ =
      Grammar.statement (.ofDepth (k + 1) : Parts) ⟨last', rest, d⟩ := by
  cases rest with
  | nil => rfl
  | cons t rest =>
    cases t with
    | symbol s => cases s <;> rfl
    | keyword w => cases w <;> rfl
    | _ => rfl

lemma Visits.last {last : Token} {rest : List Token} {d : Nat}
    (h : Visits (.ofDepth k) ⟨last, rest, d⟩ ss es c') (hk : rest.length ≤ k)
    (hc' : c'.peek = .endOfInput) (last' : Token) :
    ∃ c'', Visits (.ofDepth k) ⟨last', rest, d⟩ ss es c'' ∧ c''.peek = .endOfInput := by
  cases h with
  | refl => exact ⟨⟨last', rest, d⟩, .refl _, hc'⟩
  | read hne h h' =>
    have hpos : 0 < rest.length := List.length_pos_iff.2 (rest_ne_nil hne)
    obtain ⟨k, rfl⟩ : ∃ l, k = l + 1 := ⟨k - 1, by omega⟩
    rw [Parser.Ends, statement_last k last last'] at h
    exact ⟨c', .read hne h h', hc'⟩
  | refused hne h h' =>
    have hpos : 0 < rest.length := List.length_pos_iff.2 (rest_ne_nil hne)
    obtain ⟨k, rfl⟩ : ∃ l, k = l + 1 := ⟨k - 1, by omega⟩
    rw [Parser.Ends, statement_last k last last'] at h
    exact ⟨c', .refused hne h h', hc'⟩

/-- The steps in a text that ends outside of every block are steps in each longer text. -/
lemma Visits.append (h : Visits (.ofDepth k) c ss es c') (hk : c.rest.length ≤ k)
    (hm : c.rest.length + us.length ≤ m) (hc : Closed c.rest) (hdepth : c.depth = 0)
    (hts : .endOfInput ∉ c.rest) : Visits (.ofDepth m) (c.append us) ss es (c'.append us) := by
  induction h with
  | refl c => exact .refl _
  | @read c c₁ _ s _ _ hne h _ ih =>
    have hholds := Grammar.statement_sound (Parts.sound_ofDepth k) h
    have hlt := hholds.length_lt
    obtain ⟨ts, -, hpass, hdepth'⟩ := hholds.passes
    have hsuffix : c₁.rest <:+ c.rest := hpass.rest_eq ▸ List.suffix_append _ _
    have hend :
        (Grammar.statement (.ofDepth m : Parts)).Ends (c.append us) (.ok s) (c₁.append us) := by
      refine Grammar.statement_complete (Parts.complete_ofDepth m) ?_ (hholds.append hc us)
      rw [Cursor.append, List.length_append]
      exact hm
    exact .read (Parser.peek_append_ne hne) hend (ih (by omega) (by omega) (hc.suffix hsuffix)
      (hdepth'.trans hdepth) fun hmem => hts (hsuffix.subset hmem))
  | @refused c c₁ _ e _ _ hne h _ ih =>
    have hlt := length_recover_lt hk hne h
    have hrest := rest_ne_nil hne
    have hrefuses := Grammar.statement_refused (Parts.refused_ofDepth k) hk h
    obtain ⟨hfound, hlast, hzero⟩ := Refuses.closed hrefuses hc hdepth hrest hts
    have hsuffix : c₁.recover.rest <:+ c.rest :=
      (behind_suffix _ _ _).trans (Refuses.rest_suffix hrefuses)
    obtain ⟨-, d, hend, hfollows⟩ :=
      Grammar.statement_carries (Parts.carries_ofDepth us k m) hk hm _ _ h (Or.inr hfound)
    obtain rfl := hfollows.eq_of_found hfound
    have hrecover : (c₁.append us).recover = c₁.recover.append us := behind_append hzero hlast us
    exact .refused (Parser.peek_append_ne hne) hend (hrecover ▸ ih (by omega) (by omega)
      (hc.suffix hsuffix) depth_behind fun hmem => hts (hsuffix.subset hmem))

end Reading

/-! ### Sources -/

open Token Cursor Reading in
/-- A text that ends with a semicolon outside of every block is read by itself, and so is the text
behind it. -/
theorem parse_append {a : String} (hnul : nul ∉ a.toList)
    (hlast : (ofSource a).getLast? = some (.symbol .semicolon))
    (hdepth : depthAfter 0 (ofSource a) = 0) (b : String) :
    parse (a ++ b) = ((parse a).1 ++ (parse b).1, (parse a).2 ++ (parse b).2) := by
  have hend := endOfInput_notMem_stream hnul
  rw [ofSource_eq_stream hnul] at hlast hdepth
  have hclosed : Closed (stream a.toList) := by
    refine ⟨fun t ht => ?_, hdepth⟩
    rw [hlast] at ht
    exact (Option.mem_some_iff.1 ht).symm
  have htokens : stream (a ++ b).toList = stream a.toList ++ stream b.toList := by
    rw [String.toList_append, stream_append hclosed.1]
  obtain ⟨ca, hvisits, hca⟩ := parse_eq_iff.1 (rfl : parse a = ((parse a).1, (parse a).2))
  obtain ⟨cb, hvisits', hcb⟩ := parse_eq_iff.1 (rfl : parse b = ((parse b).1, (parse b).2))
  obtain ⟨hca', hsuffix⟩ := hvisits.depth_eq (Nat.le_refl _) rfl
  have hrest : ca.rest = [] := by
    by_contra hne
    obtain ⟨t, us, hcons⟩ := List.exists_cons_of_ne_nil hne
    rw [peek, hcons] at hca
    obtain rfl : t = .endOfInput := hca
    exact hend (hsuffix.subset (by simp [hcons]))
  have hle : (stream a.toList).length + (stream b.toList).length ≤
      (stream (a ++ b).toList).length := by
    rw [htokens, List.length_append]
  have hfirst := hvisits.append (Nat.le_refl _) hle hclosed rfl hend
  have hplace : ca.append (stream b.toList) = ⟨ca.last, stream b.toList, 0⟩ := by
    rw [Cursor.append, hrest, hca', List.nil_append]
  have hle' : (stream b.toList).length ≤ (stream (a ++ b).toList).length := by omega
  obtain ⟨c', hsecond, hc'⟩ :=
    Visits.last (hvisits'.ofDepth (Nat.le_refl _) hle') hle' hcb ca.last
  rw [hplace] at hfirst
  refine parse_eq_iff.2 ⟨c', ?_, hc'⟩
  rw [htokens]
  exact hfirst.trans hsecond

/-- Two texts, each with a statement and an error. -/
theorem parse_append_errors :
    let a := "1 + ; let x = 2;"
    let b := "-x; )"
    (Token.nul ∉ a.toList ∧ (Token.ofSource a).getLast? = some (.symbol .semicolon) ∧
      Token.depthAfter 0 (Token.ofSource a) = 0) ∧
    parse a = ([.binding "x" (.integer 2)], [.noExpressionAt (.symbol .semicolon)]) ∧
    parse b = ([.expression (.unary .negate (.identifier "x"))],
      [.noExpressionAt (.symbol .rightParen)]) ∧
    parse (a ++ b) = ([.binding "x" (.integer 2), .expression (.unary .negate (.identifier "x"))],
      [.noExpressionAt (.symbol .semicolon), .noExpressionAt (.symbol .rightParen)]) := by
  intro a b
  have htokens : Token.ofSource a = [.int "1", .symbol .plus, .symbol .semicolon,
      .keyword .letWord, .ident "x", .symbol .assign, .int "2", .symbol .semicolon] := by cbv
  have hnul : Token.nul ∉ a.toList := by decide
  have hlast : (Token.ofSource a).getLast? = some (.symbol .semicolon) := by
    rw [htokens]
    rfl
  have hdepth : Token.depthAfter 0 (Token.ofSource a) = 0 := by
    rw [htokens]
    rfl
  have ha : parse a =
      ([.binding "x" (.integer 2)], [.noExpressionAt (.symbol .semicolon)]) := by
    decide +kernel
  have hb : parse b = ([.expression (.unary .negate (.identifier "x"))],
      [.noExpressionAt (.symbol .rightParen)]) := by
    decide +kernel
  have happend := parse_append hnul hlast hdepth b
  rw [ha, hb] at happend
  exact ⟨⟨hnul, hlast, hdepth⟩, ha, hb, happend⟩

end TreeWalk
