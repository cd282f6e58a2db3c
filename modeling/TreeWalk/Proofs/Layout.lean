/-
# The layouts of a row of tokens

A row of tokens is written down token by token, with blanks in front of each of them and behind
the last one.  A token may stand right behind another one, unless the one in front grows with the
first character of the one behind: two words would make one word, two numbers one number, and `=`
behind `=` or `!` a longer sign.  `LaidOut ts text` says that `text` is such a layout of `ts`.

Cutting a text into tokens is the inverse of laying them out (`stream_eq_iff`): every text is
a layout of its tokens, and whatever tokens it is a layout of, these are its tokens.  Nothing is
lost, and nothing but blanks is skipped.

A NUL character in a text is read as an end of input and takes its place in the layout, so a text
has the tokens of its parts between the NUL characters, with an end of input between any two.
-/
import Mathlib.Data.List.Chain
import Mathlib.Tactic.Common
import TreeWalk.Proofs.Stream

namespace TreeWalk
namespace Token

variable {c : Char} {text rest : List Char} {t u : Token} {ts : List Token}

/-! ### Layouts -/

/-- What stands for a token in a text.  For an end of input inside of it this is a NUL character. -/
def piece : Token → List Char
  | endOfInput => [nul]
  | t => t.literal.toList

/-- The text has the pieces of the tokens in their order and blanks around them, and no token
grows with the character behind its piece. -/
inductive LaidOut : List Token → List Char → Prop
  | nil {blanks : List Char} (hblanks : ∀ c ∈ blanks, isBlank c) : LaidOut [] blanks
  | cons {blanks rest : List Char} {t : Token} {ts : List Token}
    (hblanks : ∀ c ∈ blanks, isBlank c) (hstop : ∀ d ∈ rest.head?, ¬ t.grows d)
    (h : LaidOut ts rest) : LaidOut (t :: ts) (blanks ++ (t.piece ++ rest))

/-- The tokens that are read from their own text: the signs and keywords, names, rows of digits,
and characters that no rule admits. -/
def isWritable : Token → Bool
  | illegal c =>
    !isBlank c && !isLetter c && !isDigit c && (Symbol.ofChar? c).isNone && c ≠ nul
  | endOfInput => false
  | ident name => isName name
  | int digits => digits ≠ "" && digits.toList.all isDigit
  | symbol _ => true
  | keyword _ => true

/-- The tokens that a text may have: those that are read from their own text, and ends of input. -/
def MayOccur (t : Token) : Prop :=
  t.isWritable ∨ t = endOfInput

/-! ### The tokens of a piece -/

lemma piece_of_ne (h : t ≠ endOfInput) : t.piece = t.literal.toList := by
  unfold piece
  split
  · contradiction
  · rfl

lemma ne_endOfInput_of_isWritable (h : t.isWritable) : t ≠ endOfInput := by
  rintro rfl
  cases h

lemma stream_illegal (h : (illegal c).isWritable) : stream [c] = [illegal c] := by
  simp only [isWritable, Bool.and_eq_true, Bool.not_eq_true', Option.isNone_iff_eq_none,
    decide_eq_true_eq] at h
  obtain ⟨⟨⟨⟨hblank, hletter⟩, hdigit⟩, hsign⟩, hnul⟩ := h
  have htoken : startingWith c [] = (illegal c, []) := by
    simp [startingWith, hletter, hdigit, hsign, hnul]
  rw [stream_cons (by simp [hblank]), htoken, stream_of_nil rfl]

/-- A token is read from its own piece. -/
lemma stream_piece (h : t.MayOccur) : stream t.piece = [t] := by
  rcases h with h | rfl
  · rw [piece_of_ne (ne_endOfInput_of_isWritable h)]
    cases t with
    | illegal c =>
      rw [literal, String.toList_singleton]
      exact stream_illegal h
    | endOfInput => cases h
    | ident name => exact stream_name h
    | int digits =>
      simp only [isWritable, Bool.and_eq_true, decide_eq_true_eq, List.all_eq_true] at h
      have hdigits := stream_digits (by simpa using h.1) h.2
      rwa [String.ofList_toList] at hdigits
    | symbol s => exact stream_sign s
    | keyword k => exact stream_keyword k
  · have hend : stream [nul] = [endOfInput] := by
      rw [stream_cons (by decide)]
      exact congrArg _ (stream_of_nil rfl)
    exact hend

lemma stream_blanks {blanks : List Char} (h : ∀ c ∈ blanks, isBlank c) (text : List Char) :
    stream (blanks ++ text) = stream text := by
  induction blanks with
  | nil => rfl
  | cons c blanks ih =>
    rw [List.forall_mem_cons] at h
    rw [List.cons_append, stream_cons_blank h.1]
    exact ih h.2

/-- The tokens of a layout are those that were laid out. -/
lemma LaidOut.stream_eq (h : LaidOut ts text) (hts : ∀ t ∈ ts, t.MayOccur) : stream text = ts := by
  induction h with
  | nil hblanks => exact stream_of_nil (List.dropWhile_eq_nil_iff.2 hblanks)
  | @cons blanks rest t ts hblanks hstop h ih =>
    rw [List.forall_mem_cons] at hts
    have hpiece := stream_piece hts.1
    rw [stream_blanks hblanks, stream_append_of_not_grows, hpiece, ih hts.2]
    · rfl
    · rintro t' ht' d hd
      obtain rfl : t = t' := by simpa [hpiece] using ht'
      exact hstop d hd

/-! ### The layout of a text -/

/-- The piece of the token read first and the text behind it make the text. -/
lemma piece_append (c : Char) (rest : List Char) :
    (startingWith c rest).1.piece ++ (startingWith c rest).2 = c :: rest := by
  unfold startingWith
  split
  · rw [piece_of_ne (ofWord_ne_endOfInput _), literal_ofWord, String.toList_ofList,
      List.cons_append, List.takeWhile_append_dropWhile]
  split
  · rw [piece_of_ne (by simp), literal, String.toList_ofList, List.cons_append,
      List.takeWhile_append_dropWhile]
  split
  · next s hs =>
    split
    · next t rest hequals =>
      rw [piece_of_ne (by simp), literal, Symbol.text_of_withEquals? hequals,
        Symbol.text_of_ofChar? hs]
      simp
    · rw [piece_of_ne (by simp), literal, Symbol.text_of_ofChar? hs, String.toList_singleton]
      rfl
  · by_cases hnul : c = nul
    · rw [if_pos hnul, hnul]
      rfl
    · rw [if_neg hnul, piece_of_ne (by simp), literal, String.toList_singleton]
      rfl

lemma not_of_mem_head?_dropWhile {p : Char → Bool} {d : Char}
    (h : d ∈ (rest.dropWhile p).head?) : ¬ p d := by
  have hstop := List.head?_dropWhile_not p rest
  rw [Option.mem_def.1 h] at hstop
  simp [hstop]

/-- The token read first takes in all it can. -/
lemma not_grows_startingWith (c : Char) (rest : List Char) :
    ∀ d ∈ (startingWith c rest).2.head?, ¬ (startingWith c rest).1.grows d := by
  intro d hd
  unfold startingWith at hd ⊢
  split at hd
  · next hletter =>
    rw [if_pos hletter, grows_ofWord]
    exact not_of_mem_head?_dropWhile hd
  next hletter =>
  rw [if_neg hletter]
  split at hd
  · next hdigit =>
    rw [if_pos hdigit]
    exact not_of_mem_head?_dropWhile hd
  next hdigit =>
  rw [if_neg hdigit]
  cases hs : Symbol.ofChar? c with
  | none => by_cases hnul : c = nul <;> simp [hnul, grows]
  | some s =>
    simp only [hs] at hd ⊢
    split at hd
    · next t rest hequals =>
      -- what `=` was taken into takes in no more
      cases s <;> cases hequals <;> simp [grows, Symbol.withEquals?]
    · next hlonger =>
      intro hgrows
      simp only [grows, Bool.and_eq_true, Option.isSome_iff_exists, decide_eq_true_eq] at hgrows
      obtain ⟨⟨t, hequals⟩, rfl⟩ := hgrows
      obtain ⟨rest, rfl⟩ := List.head?_eq_some_iff.1 (Option.mem_def.1 hd)
      exact hlonger t rest hequals rfl

lemma mayOccur_startingWith (h : ¬ isBlank c) (rest : List Char) :
    (startingWith c rest).1.MayOccur := by
  unfold startingWith
  split
  · next hletter =>
    refine Or.inl ?_
    unfold ofWord
    split
    · rfl
    · next hword =>
      simp only [isWritable, isName, hword, String.toList_ofList, List.all_cons, hletter,
        List.all_takeWhile]
      simp [← String.toList_inj]
  next hletter =>
  split
  · next hdigit =>
    refine Or.inl ?_
    simp only [isWritable, String.toList_ofList, List.all_cons, hdigit, List.all_takeWhile]
    simp [← String.toList_inj]
  next hdigit =>
  split
  · split <;> exact Or.inl rfl
  · next hsign =>
    by_cases hnul : c = nul
    · exact Or.inr (if_pos hnul)
    · rw [if_neg hnul]
      exact Or.inl (by simp_all [isWritable])

lemma exists_blanks (h : text.dropWhile isBlank = c :: rest) :
    ∃ blanks, (∀ d ∈ blanks, isBlank d) ∧ ¬ isBlank c ∧ text = blanks ++ c :: rest := by
  refine ⟨text.takeWhile isBlank, fun d hd => List.mem_takeWhile_imp hd, ?_, ?_⟩
  · have hhead : c ∈ (text.dropWhile isBlank).head? := by rw [h]; rfl
    exact not_of_mem_head?_dropWhile hhead
  · rw [← h, List.takeWhile_append_dropWhile]

/-- A text is a layout of its tokens. -/
lemma laidOut_stream (text : List Char) : LaidOut (stream text) text := by
  fun_induction stream text with
  | case1 text h => exact .nil (List.dropWhile_eq_nil_iff.1 h)
  | case2 text c rest h ih =>
    obtain ⟨blanks, hblanks, -, rfl⟩ := exists_blanks h
    rw [← piece_append c rest]
    exact .cons hblanks (not_grows_startingWith c rest) ih

lemma mayOccur_of_mem_stream (h : t ∈ stream text) : t.MayOccur := by
  fun_induction stream text with
  | case1 => cases h
  | case2 text c rest heq ih =>
    obtain ⟨blanks, -, hblank, -⟩ := exists_blanks heq
    rcases List.mem_cons.1 h with rfl | h
    · exact mayOccur_startingWith hblank rest
    · exact ih h

/-- The tokens of a text are the ones it is a layout of. -/
theorem stream_eq_iff : stream text = ts ↔ LaidOut ts text ∧ ∀ t ∈ ts, t.MayOccur := by
  constructor
  · rintro rfl
    exact ⟨laidOut_stream text, fun t => mayOccur_of_mem_stream⟩
  · rintro ⟨h, hts⟩
    exact h.stream_eq hts

/-! ### Where blanks are needed -/

/-- Is a token a name or a keyword? -/
def isWord : Token → Bool
  | ident _ => true
  | keyword _ => true
  | _ => false

/-- Is a token a number? -/
def isNumber : Token → Bool
  | int _ => true
  | _ => false

/-- Do two tokens run into one when nothing stands between them?  Two words do, two numbers, and
`=` or `!` with `=` or `==` behind it. -/
def fuses (t u : Token) : Bool :=
  t.isWord && u.isWord || t.isNumber && u.isNumber ||
    (t = symbol .assign || t = symbol .bang) && (u = symbol .assign || u = symbol .equal)

/-- Tokens with blanks behind each of them, as a text. -/
def written (items : List (Token × String)) : String :=
  String.join (items.map fun i => i.1.literal ++ i.2)

/-- The first character of a token tells what runs into it. -/
lemma exists_first_char (h : u.isWritable) : ∃ d ds, u.literal.toList = d :: ds ∧ ¬ isBlank d ∧
    isLetter d = u.isWord ∧ isDigit d = u.isNumber ∧
    (d = '=' ↔ u = symbol .assign ∨ u = symbol .equal) := by
  have hequals : ∀ {d}, isLetter d ∨ isDigit d → d ≠ '=' := by
    rintro d hd rfl
    revert hd
    decide
  cases u with
  | illegal c =>
    simp only [isWritable, Bool.and_eq_true, Bool.not_eq_true', Option.isNone_iff_eq_none,
      decide_eq_true_eq] at h
    obtain ⟨⟨⟨⟨hblank, hletter⟩, hdigit⟩, hsign⟩, -⟩ := h
    refine ⟨c, [], by simp [literal], by simp [hblank], hletter, hdigit, ?_⟩
    simp only [reduceCtorEq, or_self, iff_false]
    rintro rfl
    cases hsign
  | endOfInput => cases h
  | ident name =>
    simp only [isWritable, isName, Bool.and_eq_true, decide_eq_true_eq, List.all_eq_true] at h
    obtain ⟨⟨hne, hletters⟩, -⟩ := h
    obtain ⟨d, ds, hcons⟩ := List.exists_cons_of_ne_nil (by simpa using hne : name.toList ≠ [])
    have hd : isLetter d := hletters d (by simp [hcons])
    refine ⟨d, ds, hcons, not_isBlank_of_run (Or.inl hd), hd, ?_, by simp [hequals (Or.inl hd)]⟩
    exact Bool.eq_false_iff.2 fun hdigit => not_isLetter_of_isDigit hdigit hd
  | int digits =>
    simp only [isWritable, Bool.and_eq_true, decide_eq_true_eq, List.all_eq_true] at h
    obtain ⟨hne, hdigits⟩ := h
    obtain ⟨d, ds, hcons⟩ := List.exists_cons_of_ne_nil (by simpa using hne : digits.toList ≠ [])
    have hd : isDigit d := hdigits d (by simp [hcons])
    refine ⟨d, ds, hcons, not_isBlank_of_run (Or.inr hd), ?_, hd, by simp [hequals (Or.inr hd)]⟩
    exact Bool.eq_false_iff.2 (not_isLetter_of_isDigit hd)
  | symbol s => cases s <;> exact ⟨_, _, rfl, by decide, by decide, by decide, by decide⟩
  | keyword k => cases k <;> exact ⟨_, _, rfl, by decide, by decide, by decide, by decide⟩

/-- A token grows with the first character of the next one if the two run into one. -/
lemma grows_eq_fuses {d : Char} (h : u.isWritable) (hd : d ∈ u.literal.toList.head?) :
    t.grows d = t.fuses u := by
  obtain ⟨d', ds, hcons, -, hletter, hdigit, hequals⟩ := exists_first_char h
  obtain rfl : d' = d := by simpa [hcons] using hd
  cases t with
  | symbol s =>
    simp only [grows, fuses, isWord, isNumber, hequals]
    cases s <;> simp [Symbol.withEquals?]
  | _ => simp [grows, fuses, isWord, isNumber, hletter, hdigit]

lemma not_grows_of_isBlank {d : Char} (h : isBlank d) (t : Token) : ¬ t.grows d := by
  apply not_grows_of_separates
  simp only [isBlank, Bool.or_eq_true, decide_eq_true_eq] at h
  obtain ((rfl | rfl) | rfl) | rfl := h <;> rfl

/-- The first token of a layout, taken off. -/
lemma laidOut_cons_iff {blanks : List Char} (hblanks : ∀ c ∈ blanks, isBlank c)
    (ht : t.isWritable) : LaidOut (t :: ts) (blanks ++ (t.literal.toList ++ rest)) ↔
      (∀ d ∈ rest.head?, ¬ t.grows d) ∧ LaidOut ts rest := by
  have hpiece := piece_of_ne (ne_endOfInput_of_isWritable ht)
  constructor
  · intro h
    generalize htext : blanks ++ (t.literal.toList ++ rest) = text at h
    cases h with
    | @cons blanks' rest' _ _ hblanks' hstop h =>
      -- the blanks end where the token begins, in both ways of cutting the text
      obtain ⟨d, ds, hcons, hd, -⟩ := exists_first_char ht
      have hdrop := congrArg (List.dropWhile isBlank) htext
      rw [List.dropWhile_append_of_pos hblanks, List.dropWhile_append_of_pos hblanks', hpiece,
        hcons, List.cons_append, List.cons_append, List.dropWhile_cons_of_neg hd,
        List.dropWhile_cons_of_neg hd, List.cons_inj_right, List.append_cancel_left_eq] at hdrop
      subst hdrop
      exact ⟨hstop, h⟩
  · rintro ⟨hstop, h⟩
    rw [← hpiece]
    exact .cons hblanks hstop h

/-- Tokens with blanks behind each of them are laid out if no two that run into one have nothing
between them. -/
lemma laidOut_written_iff {blanks : List Char} {items : List (Token × String)}
    (hblanks : ∀ c ∈ blanks, isBlank c)
    (hitems : ∀ i ∈ items, i.1.isWritable ∧ ∀ c ∈ i.2.toList, isBlank c) :
    LaidOut (items.map Prod.fst) (blanks ++ (written items).toList) ↔
      items.IsChain fun i j => i.2 = "" → ¬ i.1.fuses j.1 := by
  induction items generalizing blanks with
  | nil =>
    simp only [List.map_nil, List.isChain_nil, iff_true]
    exact .nil (by simpa [written] using hblanks)
  | cons i items ih =>
    obtain ⟨t, behind⟩ := i
    obtain ⟨⟨ht, hbehind⟩, hrest⟩ := List.forall_mem_cons.1 hitems
    have htext : (written ((t, behind) :: items)).toList =
        t.literal.toList ++ (behind.toList ++ (written items).toList) := by
      simp [written]
    rw [List.map_cons, htext, laidOut_cons_iff hblanks ht, ih hbehind hrest, List.isChain_cons]
    refine and_congr_left fun _ => ?_
    cases hchars : behind.toList with
    | cons b bs =>
      have hb : isBlank b := hbehind b (by simp [hchars])
      have hne : behind ≠ "" := by
        rintro rfl
        cases hchars
      simp [hne, not_grows_of_isBlank hb]
    | nil =>
      obtain rfl : behind = "" := by simpa using hchars
      cases items with
      | nil => simp [written]
      | cons j items =>
        have hj := (hrest j List.mem_cons_self).1
        obtain ⟨d, ds, hcons, -⟩ := exists_first_char hj
        have hfirst : (written (j :: items)).toList.head? = some d := by simp [written, hcons]
        have hgrows : t.grows d = t.fuses j.1 := grows_eq_fuses hj (by rw [hcons]; rfl)
        simp [hfirst, hgrows]

/-! ### Sources -/

lemma nul_notMem_literal (h : t.isWritable) : nul ∉ t.literal.toList := by
  have hrun : ¬ (isLetter nul ∨ isDigit nul) := by decide
  cases t with
  | illegal c =>
    simp only [isWritable, Bool.and_eq_true, decide_eq_true_eq] at h
    simpa [literal] using Ne.symm h.2
  | endOfInput => cases h
  | ident name =>
    simp only [isWritable, isName, Bool.and_eq_true, List.all_eq_true] at h
    exact fun hmem => hrun (Or.inl (h.1.2 nul hmem))
  | int digits =>
    simp only [isWritable, Bool.and_eq_true, List.all_eq_true] at h
    exact fun hmem => hrun (Or.inr (h.2 nul hmem))
  | symbol s => cases s <;> decide
  | keyword k => cases k <;> decide

lemma nul_notMem_written {blanks : String} {items : List (Token × String)}
    (hblanks : ∀ c ∈ blanks.toList, isBlank c)
    (hitems : ∀ i ∈ items, i.1.isWritable ∧ ∀ c ∈ i.2.toList, isBlank c) :
    nul ∉ (blanks ++ written items).toList := by
  have hblank : ¬ isBlank nul := by decide
  rw [written, String.toList_append, String.toList_join, List.flatMap_map]
  intro hmem
  rcases List.mem_append.1 hmem with hmem | hmem
  · exact hblank (hblanks nul hmem)
  obtain ⟨i, hi, hmem⟩ := List.mem_flatMap.1 hmem
  rw [String.toList_append] at hmem
  rcases List.mem_append.1 hmem with hmem | hmem
  · exact nul_notMem_literal (hitems i hi).1 hmem
  · exact hblank ((hitems i hi).2 nul hmem)

/-- With a blank in front of each, tokens are laid out. -/
lemma laidOut_spaced (h : ∀ t ∈ ts, t.isWritable) :
    LaidOut ts (ts.flatMap fun t => ' ' :: t.literal.toList) := by
  induction ts with
  | nil => exact .nil (by simp)
  | cons t ts ih =>
    rw [List.forall_mem_cons] at h
    have hblank : ∀ c ∈ [' '], isBlank c := by simp [isBlank]
    have hcons := LaidOut.cons hblank (fun d hd => ?_) (ih h.2) (t := t)
    · rwa [piece_of_ne (ne_endOfInput_of_isWritable h.1)] at hcons
    · -- what stands behind the token is a blank, or nothing
      apply not_grows_of_isBlank
      rcases ts with _ | ⟨u, us⟩
      · cases hd
      · obtain rfl : ' ' = d := by simpa using hd
        decide

/-- Whatever tokens can be written down are those of some text. -/
lemma exists_ofSource (h : ∀ t ∈ ts, t.isWritable) :
    ∃ source : String, nul ∉ source.toList ∧ ofSource source = ts := by
  have hnul : nul ∉ ts.flatMap fun t => ' ' :: t.literal.toList := by
    intro hmem
    obtain ⟨t, ht, hmem⟩ := List.mem_flatMap.1 hmem
    rcases List.mem_cons.1 hmem with hblank | hmem
    · revert hblank
      decide
    · exact nul_notMem_literal (h t ht) hmem
  refine ⟨String.ofList (ts.flatMap fun t => ' ' :: t.literal.toList), by simpa using hnul, ?_⟩
  rw [ofSource_eq_stream (by simpa using hnul), String.toList_ofList, stream_eq_iff]
  exact ⟨laidOut_spaced h, fun t ht => Or.inl (h t ht)⟩

/-- Tokens that are written down with blanks between them are read back just if no two that run
into one have nothing between them. -/
theorem ofSource_written {blanks : String} {items : List (Token × String)}
    (hblanks : ∀ c ∈ blanks.toList, isBlank c)
    (hitems : ∀ i ∈ items, i.1.isWritable ∧ ∀ c ∈ i.2.toList, isBlank c) :
    ofSource (blanks ++ written items) = items.map Prod.fst ↔
      items.IsChain fun i j => i.2 = "" → ¬ i.1.fuses j.1 := by
  have hts : ∀ t ∈ items.map Prod.fst, t.MayOccur := by
    intro t ht
    obtain ⟨i, hi, rfl⟩ := List.mem_map.1 ht
    exact Or.inl (hitems i hi).1
  rw [ofSource_eq_stream (nul_notMem_written hblanks hitems), stream_eq_iff,
    and_iff_left hts, String.toList_append]
  exact laidOut_written_iff hblanks hitems

/-- Signs behind signs, and a number and a word behind each other, with a blank where one is
needed. -/
theorem ofSource_written_signs :
    ((∀ c ∈ "\t".toList, isBlank c) ∧
      ∀ i ∈ [(symbol .assign, " "), (symbol .equal, ""), (symbol .assign, "\n"),
        (symbol .assign, ""), (ident "x", ""), (int "01", ""), (keyword .ifWord, " "),
        (illegal '@', "")], i.1.isWritable ∧ ∀ c ∈ i.2.toList, isBlank c) ∧
    ofSource "\t= ===\n=x01if @" = [symbol .assign, symbol .equal, symbol .assign, symbol .assign,
      ident "x", int "01", keyword .ifWord, illegal '@'] := by
  have hwritable : (∀ c ∈ "\t".toList, isBlank c) ∧
      ∀ i ∈ [(symbol .assign, " "), (symbol .equal, ""), (symbol .assign, "\n"),
        (symbol .assign, ""), (ident "x", ""), (int "01", ""), (keyword .ifWord, " "),
        (illegal '@', "")], i.1.isWritable ∧ ∀ c ∈ i.2.toList, isBlank c := by
    refine ⟨by simp [isBlank], ?_⟩
    suffices isName "x" ∧ (isDigit '0' ∧ isDigit '1') ∧
        ((isLetter '@' = false ∧ isDigit '@' = false) ∧ Symbol.ofChar? '@' = none) ∧ '@' ≠ nul by
      simpa [isBlank, isWritable]
    decide
  refine ⟨hwritable, (ofSource_written hwritable.1 hwritable.2).2 ?_⟩
  simp [fuses, isWord, isNumber]

/-! ### Reading token by token -/

/-- The tokens that some readings in a row give. -/
def readings : Nat → List Char → List Token
  | 0, _ => []
  | n + 1, text => (read text).1 :: readings n (read text).2

/-- The text that some readings in a row leave. -/
def leftBehind : Nat → List Char → List Char
  | 0, text => text
  | n + 1, text => leftBehind n (read text).2

lemma read_of_nil (h : text.dropWhile isBlank = []) : read text = (endOfInput, []) := by
  rw [read, h]

lemma read_of_cons (h : text.dropWhile isBlank = c :: rest) : read text = startingWith c rest := by
  rw [read, h]

/-- Readings in a row give the tokens of the text, and then ends of input. -/
lemma readings_eq (n : Nat) (text : List Char) :
    readings n text = (stream text ++ List.replicate n endOfInput).take n := by
  induction n generalizing text with
  | zero => rfl
  | succ n ih =>
    rw [readings, ih]
    cases h : text.dropWhile isBlank with
    | nil =>
      have hend : stream [] = [] := stream_of_nil rfl
      simp [read_of_nil h, stream_of_nil h, hend, List.replicate_succ]
    | cons c rest =>
      rw [read_of_cons h, stream_of_cons h, List.cons_append, List.take_succ_cons, List.take_append,
        List.take_append, List.take_replicate, List.take_replicate, Nat.min_eq_left (by omega),
        Nat.min_eq_left (by omega)]

/-- Behind the last token there are only blanks. -/
lemma isBlank_of_mem_leftBehind (text : List Char) :
    ∀ c ∈ leftBehind (stream text).length text, isBlank c := by
  fun_induction stream text with
  | case1 text h => exact List.dropWhile_eq_nil_iff.1 h
  | case2 text c rest h ih =>
    rw [List.length_cons, leftBehind, read_of_cons h]
    exact ih

/-- NUL characters between texts are ends of input between their tokens. -/
lemma stream_intercalate_nul (parts : List (List Char)) :
    stream ([nul].intercalate parts) = [endOfInput].intercalate (parts.map stream) := by
  induction parts with
  | nil => exact stream_of_nil rfl
  | cons text parts ih =>
    cases parts with
    | nil => simp
    | cons text' parts =>
      simp only [List.map_cons, List.intercalate_cons_cons] at ih ⊢
      rw [List.append_assoc, List.singleton_append, stream_append_nul, ih]
      simp

/-- A text is a layout of the tokens that readings in a row give, up to its end, from where on they
give ends of input.  Its parts between NUL characters have their own tokens. -/
theorem laidOut_readings (source : String) :
    LaidOut (stream source.toList) source.toList ∧
      (∀ n, readings n source.toList =
        (stream source.toList ++ List.replicate n endOfInput).take n) ∧
      (∀ c ∈ leftBehind (stream source.toList).length source.toList, isBlank c) ∧
      ∀ parts : List String, (∀ s ∈ parts, nul ∉ s.toList) → source = "\x00".intercalate parts →
        stream source.toList = [endOfInput].intercalate (parts.map ofSource) := by
  refine ⟨laidOut_stream _, fun n => readings_eq n _, isBlank_of_mem_leftBehind _, ?_⟩
  rintro parts hparts rfl
  have hnul : "\x00".toList = [nul] := rfl
  have hends : parts.map ofSource = parts.map fun s => stream s.toList :=
    List.map_congr_left fun s hs => ofSource_eq_stream (hparts s hs)
  rw [String.toList_intercalate, hnul, stream_intercalate_nul, hends, List.map_map]
  rfl

/-- A sign is not made longer across a NUL character. -/
theorem stream_of_two_parts :
    (∀ s ∈ ["x =", "= 1"], nul ∉ s.toList) ∧ "x =\x00= 1" = "\x00".intercalate ["x =", "= 1"] ∧
      stream "x =\x00= 1".toList =
        [endOfInput].intercalate (["x =", "= 1"].map ofSource) :=
  have hparts : ∀ s ∈ ["x =", "= 1"], nul ∉ s.toList := by decide
  ⟨hparts, rfl, (laidOut_readings "x =\x00= 1").2.2.2 ["x =", "= 1"] hparts rfl⟩

end Token
end TreeWalk
