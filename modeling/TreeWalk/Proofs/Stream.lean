/-
# Tokens of texts that stand in a row

A token grows with a character that stands right behind it if the character may belong to it: a
word with a letter, a number with a digit, and `=` and `!` with `=`.  A text is cut where its last
token does not grow: then its tokens come first, and those of the text behind follow
(`Token.stream_append_of_not_grows`).  A semicolon never grows, and no token grows with a blank,
a parenthesis, a brace or a NUL character.
-/
import Mathlib.Data.List.TakeWhile
import TreeWalk.Token.Stream

namespace TreeWalk
namespace Token

variable {c : Char} {a b rest text : List Char} {t : Token}

/-! ### One token -/

lemma ofWord_ne_symbol (word : String) (s : Symbol) : ofWord word ≠ symbol s := by
  unfold ofWord
  split <;> simp

/-- Only a NUL character is read as an end of input. -/
lemma eq_nul_of_startingWith (h : (startingWith c rest).1 = endOfInput) : c = nul := by
  unfold startingWith at h
  split at h
  · exact absurd h (ofWord_ne_endOfInput _)
  split at h
  · cases h
  split at h
  · split at h <;> cases h
  · split at h
    · assumption
    · cases h

/-- The text behind a token ends the text that the token began. -/
lemma startingWith_suffix (c : Char) (rest : List Char) : (startingWith c rest).2 <:+ rest := by
  unfold startingWith
  split
  · exact List.dropWhile_suffix _
  split
  · exact List.dropWhile_suffix _
  split
  · split
    · exact List.suffix_cons _ _
    · exact List.suffix_refl _
  · exact List.suffix_refl _

/-- Does a token take in a character that stands right behind it? -/
def grows : Token → Char → Bool
  | ident _, c => isLetter c
  | keyword _, c => isLetter c
  | int _, c => isDigit c
  | symbol s, c => s.withEquals?.isSome && c = '='
  | illegal _, _ => false
  | endOfInput, _ => false

/-- The characters that no token takes in. -/
def separates (c : Char) : Bool :=
  !isLetter c && !isDigit c && c ≠ '='

lemma not_grows_of_separates (h : separates c) (t : Token) : ¬ t.grows c := by
  simp only [separates, Bool.and_eq_true, Bool.not_eq_true', decide_eq_true_eq] at h
  obtain ⟨⟨hletter, hdigit⟩, hequals⟩ := h
  cases t <;> simp [grows, hletter, hdigit, hequals]

lemma grows_ofWord (word : String) (c : Char) : (ofWord word).grows c = isLetter c := by
  unfold ofWord
  split <;> rfl

/-- A run of characters ends inside a text, or at its end, if the character behind does not belong
to the run. -/
lemma takeWhile_dropWhile_append {p : Char → Bool}
    (h : rest.dropWhile p ≠ [] ∨ ∀ d ∈ b.head?, ¬ p d) :
    (rest ++ b).takeWhile p = rest.takeWhile p ∧
      (rest ++ b).dropWhile p = rest.dropWhile p ++ b := by
  have hsplit : rest.takeWhile p ++ rest.dropWhile p = rest := List.takeWhile_append_dropWhile
  by_cases hend : rest.dropWhile p = []
  · have hb : b.takeWhile p = [] ∧ b.dropWhile p = b := by
      cases b with
      | nil => exact ⟨rfl, rfl⟩
      | cons d b => simp [h.resolve_left (not_not.2 hend) d rfl]
    rw [hend, List.append_nil] at hsplit
    rw [List.takeWhile_append, if_pos (congrArg List.length hsplit), hb.1, List.dropWhile_append,
      hend, hsplit]
    exact ⟨List.append_nil _, hb.2⟩
  · have hlength := congrArg List.length hsplit
    have hpos := List.length_pos_iff.2 hend
    rw [List.length_append] at hlength
    rw [List.takeWhile_append, if_neg (by omega), List.dropWhile_append,
      if_neg (by simpa using hend)]
    exact ⟨rfl, rfl⟩

/-- A token does not grow when more text is put behind, if there was text behind it already or if
it does not take in the first character. -/
lemma startingWith_append
    (h : (startingWith c rest).2 ≠ [] ∨ ∀ d ∈ b.head?, ¬ (startingWith c rest).1.grows d) :
    startingWith c (rest ++ b) = ((startingWith c rest).1, (startingWith c rest).2 ++ b) := by
  unfold startingWith at h ⊢
  split at h
  · next hc =>
    simp only [grows_ofWord] at h
    have hrun := takeWhile_dropWhile_append h
    rw [if_pos hc, if_pos hc, hrun.1, hrun.2]
  · next hc =>
    rw [if_neg hc, if_neg hc]
    split at h
    · next hd =>
      have hrun := takeWhile_dropWhile_append h
      rw [if_pos hd, if_pos hd, hrun.1, hrun.2]
    · next hd =>
      rw [if_neg hd, if_neg hd]
      cases hs : Symbol.ofChar? c with
      | none => rfl
      | some s =>
        simp only [hs] at h ⊢
        cases hs' : s.withEquals? with
        | none => rfl
        | some t =>
          -- only an `=` right behind makes a longer sign
          cases rest with
          | nil =>
            simp only [hs', ne_eq, not_true_eq_false, false_or] at h
            cases b with
            | nil => rfl
            | cons d b =>
              have hequals : d ≠ '=' := by simpa [grows, hs'] using h d rfl
              simp [hequals]
          | cons d rest =>
            by_cases hequals : d = '='
            · rw [hequals]
              rfl
            · simp [hequals]

/-! ### All tokens -/

lemma stream_of_nil (h : text.dropWhile isBlank = []) : stream text = [] := by
  rw [stream]
  split
  · rfl
  · next h' => rw [h] at h'; cases h'

lemma stream_of_cons (h : text.dropWhile isBlank = c :: rest) :
    stream text = (startingWith c rest).1 :: stream (startingWith c rest).2 := by
  rw [stream]
  split
  · next h' => rw [h] at h'; cases h'
  · next h' => rw [h] at h'; cases h'; rfl

/-- The tokens of a source text are those in front of its first end. -/
lemma upToEnd_fst (text : List Char) :
    (upToEnd text).1 = (stream text).takeWhile (fun t => t ≠ endOfInput) := by
  fun_induction upToEnd text with
  | case1 text h => rw [stream_of_nil h]; rfl
  | case2 text c rest h hend => simp [stream_of_cons h, hend]
  | case3 text c rest h hend tokens behind heq ih =>
    rw [heq] at ih
    simpa [stream_of_cons h, hend] using ih

/-- A text without NUL characters ends at its end only. -/
theorem endOfInput_notMem_stream (h : nul ∉ text) : endOfInput ∉ stream text := by
  fun_induction stream text with
  | case1 => simp
  | case2 text c rest hc ih =>
    have hsuffix : c :: rest <:+ text := hc ▸ List.dropWhile_suffix _
    rw [List.mem_cons, not_or]
    constructor
    · intro hend
      exact h (hsuffix.subset (eq_nul_of_startingWith hend.symm ▸ List.mem_cons_self))
    · refine ih fun hmem => h (hsuffix.subset (List.mem_cons_of_mem _ ?_))
      exact (startingWith_suffix c rest).subset hmem

lemma forall_ne_endOfInput {ts : List Token} (h : endOfInput ∉ ts) :
    ∀ t ∈ ts, decide (t ≠ endOfInput) = true := by
  intro t ht
  simpa using fun he : t = endOfInput => h (he ▸ ht)

/-- In a text without NUL characters all tokens are in front of the end. -/
lemma ofSource_eq_stream {source : String} (h : nul ∉ source.toList) :
    ofSource source = stream source.toList := by
  rw [ofSource, upToEnd_fst, List.takeWhile_eq_self_iff]
  exact forall_ne_endOfInput (endOfInput_notMem_stream h)

/-- A text whose last token does not grow may be continued without a change to its tokens. -/
theorem stream_append_of_not_grows
    (h : ∀ t ∈ (stream a).getLast?, ∀ d ∈ b.head?, ¬ t.grows d) :
    stream (a ++ b) = stream a ++ stream b := by
  fun_induction stream a with
  | case1 a ha =>
    have hb : (a ++ b).dropWhile isBlank = b.dropWhile isBlank := by
      rw [List.dropWhile_append, ha]
      rfl
    cases hb' : b.dropWhile isBlank with
    | nil => rw [stream_of_nil (hb.trans hb'), stream_of_nil hb', List.append_nil]
    | cons c rest => rw [stream_of_cons (hb.trans hb'), stream_of_cons hb', List.nil_append]
  | case2 a c rest ha ih =>
    have hc : (a ++ b).dropWhile isBlank = c :: (rest ++ b) := by
      rw [List.dropWhile_append, ha]
      rfl
    have hlast : (startingWith c rest).2 ≠ [] ∨
        ∀ d ∈ b.head?, ¬ (startingWith c rest).1.grows d := by
      by_cases hrest : (startingWith c rest).2 = []
      · rw [hrest, stream_of_nil rfl] at h
        exact Or.inr (h _ rfl)
      · exact Or.inl hrest
    rw [stream_of_cons hc, startingWith_append hlast, List.cons_append]
    refine congrArg _ (ih fun t ht => h t ?_)
    simp [List.getLast?_cons, Option.mem_def.1 ht]

/-- Behind a semicolon a text may be continued without a change to its tokens. -/
theorem stream_append (h : ∀ t ∈ (stream a).getLast?, t = symbol .semicolon) (b : List Char) :
    stream (a ++ b) = stream a ++ stream b := by
  refine stream_append_of_not_grows fun t ht d _ => ?_
  rw [h t ht]
  simp [grows, Symbol.withEquals?]

/-- In front of a character that no token takes in, a text is cut. -/
lemma stream_append_cons (h : separates c) (a b : List Char) :
    stream (a ++ c :: b) = stream a ++ stream (c :: b) := by
  refine stream_append_of_not_grows fun t _ d hd => ?_
  obtain rfl : c = d := Option.some.inj hd
  exact not_grows_of_separates h t

/-! ### Texts of single tokens -/

/-- Is a word a name: a run of letters that is no keyword? -/
def isName (word : String) : Bool :=
  word ≠ "" && word.toList.all isLetter && (Keyword.ofText? word).isNone

lemma not_isBlank_of_run (h : isLetter c ∨ isDigit c) : ¬ isBlank c := by
  intro hblank
  simp only [isBlank, Bool.or_eq_true, decide_eq_true_eq] at hblank
  obtain ((rfl | rfl) | rfl) | rfl := hblank <;> revert h <;> decide

lemma not_isLetter_of_isDigit (h : isDigit c) : ¬ isLetter c := by
  intro hletter
  change (decide (c.val ≥ '0'.val) && decide (c.val ≤ '9'.val)) = true at h
  change (decide (c.val ≥ 'A'.val ∧ c.val ≤ 'Z'.val) ||
    decide (c.val ≥ 'a'.val) && decide (c.val ≤ 'z'.val) || decide (c = '_')) = true at hletter
  simp only [Bool.or_eq_true, Bool.and_eq_true, decide_eq_true_eq] at h hletter
  obtain (⟨hle, -⟩ | ⟨hle, -⟩) | rfl := hletter
  · exact absurd (UInt32.le_trans hle h.2) (by decide)
  · exact absurd (UInt32.le_trans hle h.2) (by decide)
  · exact absurd h.2 (by decide)

lemma stream_cons (h : ¬ isBlank c) :
    stream (c :: rest) = (startingWith c rest).1 :: stream (startingWith c rest).2 :=
  stream_of_cons (by rw [List.dropWhile_cons, if_neg h])

lemma stream_word {word : String} (hne : word ≠ "") (h : ∀ c ∈ word.toList, isLetter c) :
    stream word.toList = [ofWord word] := by
  obtain ⟨c, rest, hcons⟩ : ∃ c rest, word.toList = c :: rest :=
    List.exists_cons_of_ne_nil (by simpa using hne)
  rw [hcons, List.forall_mem_cons] at h
  have htoken : startingWith c rest = (ofWord word, []) := by
    rw [startingWith, if_pos h.1, List.takeWhile_eq_self_iff.2 h.2, List.dropWhile_eq_nil_iff.2 h.2,
      ← hcons, String.ofList_toList]
  rw [hcons, stream_cons (not_isBlank_of_run (Or.inl h.1)), htoken, stream_of_nil rfl]

lemma stream_digits {digits : List Char} (hne : digits ≠ []) (h : ∀ c ∈ digits, isDigit c) :
    stream digits = [int (String.ofList digits)] := by
  obtain ⟨c, rest, rfl⟩ := List.exists_cons_of_ne_nil hne
  rw [List.forall_mem_cons] at h
  have htoken : startingWith c rest = (int (String.ofList (c :: rest)), []) := by
    rw [startingWith, if_neg (not_isLetter_of_isDigit h.1), if_pos h.1,
      List.takeWhile_eq_self_iff.2 h.2, List.dropWhile_eq_nil_iff.2 h.2]
  rw [stream_cons (not_isBlank_of_run (Or.inr h.1)), htoken, stream_of_nil rfl]

lemma stream_name {name : String} (h : isName name) : stream name.toList = [ident name] := by
  simp only [isName, Bool.and_eq_true, decide_eq_true_eq, List.all_eq_true,
    Option.isNone_iff_eq_none] at h
  rw [stream_word h.1.1 h.1.2, ofWord, h.2]

lemma stream_keyword (k : Keyword) : stream k.text.toList = [keyword k] := by
  have hletters : k.text.toList.all isLetter := by cases k <;> rfl
  rw [stream_word (by cases k <;> decide) (List.all_eq_true.1 hletters), ofWord_text]

lemma stream_sign (s : Symbol) : stream s.text.toList = [symbol s] := by
  cases s <;> exact (stream_of_cons rfl).trans (congrArg _ (stream_of_nil rfl))

lemma stream_cons_blank (h : isBlank c) (text : List Char) : stream (c :: text) = stream text := by
  have hcut : (c :: text).dropWhile isBlank = text.dropWhile isBlank := by
    rw [List.dropWhile_cons, if_pos h]
  cases hdrop : text.dropWhile isBlank with
  | nil => rw [stream_of_nil (hcut.trans hdrop), stream_of_nil hdrop]
  | cons d rest => rw [stream_of_cons (hcut.trans hdrop), stream_of_cons hdrop]

/-- A sign that does not grow, in front of a text. -/
lemma stream_cons_sign {s : Symbol} (h : Symbol.ofChar? c = some s) (hs : s.withEquals? = none)
    (text : List Char) : stream (c :: text) = symbol s :: stream text := by
  have hsign : stream [c] = [symbol s] := by
    rw [← stream_sign s, Symbol.text_of_ofChar? h, String.toList_singleton]
  rw [← List.singleton_append, stream_append_of_not_grows, hsign]
  · rfl
  · simp [hsign, grows, hs]

/-! ### NUL characters -/

/-- A NUL character ends the input, whatever stands behind it. -/
theorem stream_append_nul (a b : List Char) :
    stream (a ++ nul :: b) = stream a ++ endOfInput :: stream b := by
  have hnul : startingWith nul b = (endOfInput, b) := rfl
  rw [stream_append_cons (by decide), stream_cons (by decide), hnul]

end Token
end TreeWalk
