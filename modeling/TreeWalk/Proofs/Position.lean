/-
# Reading by position

`Token.read` is given the text that is still to be read, and returns what is left of it.  A
*scanner* never lets go of the text: it keeps the whole of it, the position of the current
character, the position from which the next character is taken, and the current character itself.
It goes on one character at a time, and cuts words and numbers out of the text by the positions
where they begin and end, which may fail.

Every scanner that began in front of a text keeps its place in order (`Scanner.Sound`), and in that
order it reads what `Token.read` reads from the text behind its position
(`Scanner.Sound.gives_next`).  So a cut never fails, the position grows whenever a token is left, and
what is still to come does not depend on what stands in front of the position.
-/
import Mathlib.Tactic.Common
import TreeWalk.Proofs.Layout

namespace TreeWalk
namespace Token

/-! ### Scanners -/

lemma not_isBlank_nul : ¬ isBlank nul := by decide

lemma not_isLetter_nul : ¬ isLetter nul := by decide

lemma not_isDigit_nul : ¬ isDigit nul := by decide

/-- A text and a place in it. -/
structure Scanner where
  /-- The characters of the whole text. -/
  chars : List Char
  /-- The position of the current character. -/
  position : Nat
  /-- The position from which the next character is taken. -/
  readPosition : Nat
  /-- The current character. -/
  current : Char
deriving DecidableEq, Repr

namespace Scanner

/-- The character that is taken next.  Behind the text this is NUL. -/
def peek (s : Scanner) : Char :=
  s.chars.getD s.readPosition nul

/-- Take the next character. -/
def advance (s : Scanner) : Scanner :=
  { s with
    position := s.readPosition
    readPosition := if s.readPosition < s.chars.length then s.readPosition + 1 else s.readPosition
    current := s.peek }

/-- The scanner in front of a text. -/
def ofText (text : List Char) : Scanner :=
  advance ⟨text, 0, 0, nul⟩

/-- Take characters as long as the current one is of a class to which NUL does not belong. -/
def passWhile (p : Char → Bool) (hp : ¬ p nul) (s : Scanner) : Scanner :=
  if p s.current then passWhile p hp s.advance else s
termination_by s.chars.length - s.readPosition + if p s.current then 1 else 0
decreasing_by
  -- either a character is taken, or the text is at its end and the current one becomes NUL
  rename_i h
  by_cases hlt : s.readPosition < s.chars.length
  · simp only [advance, hlt, h, if_true]
    split <;> omega
  · have hnul : s.advance.current = nul := by simp [advance, peek, Nat.not_lt.1 hlt]
    rw [hnul, if_neg hp, if_pos h]
    simp only [advance, hlt, if_false]
    omega

/-- The characters from a position to the current one, which itself is left out.  Outside of the
text there are none, and from a later position to an earlier one neither. -/
def slice? (s : Scanner) (start : Nat) : Option (List Char) :=
  if start ≤ s.position ∧ s.position ≤ s.chars.length then
    some ((s.chars.take s.position).drop start)
  else
    none

/-- The run of the characters of a class from the current one on. -/
def run? (p : Char → Bool) (hp : ¬ p nul) (s : Scanner) : Option (String × Scanner) := do
  let behind := s.passWhile p hp
  let run ← behind.slice? s.position
  return (String.ofList run, behind)

/-- The sign that the current character begins, with the `=` behind it if that belongs to it.  The
scanner comes to the last character of the sign. -/
def sign (s : Scanner) (x : Symbol) : Token × Scanner :=
  match x.withEquals? with
  | some y => if s.peek = '=' then (symbol y, s.advance) else (symbol x, s)
  | none => (symbol x, s)

/-- The token that begins with the current character, which is no blank. -/
def token? (s : Scanner) : Option (Token × Scanner) :=
  match Symbol.ofChar? s.current with
  | some x =>
    let (t, s) := s.sign x
    some (t, s.advance)
  | none =>
    if s.current = nul then
      some (endOfInput, s.advance)
    else if isLetter s.current then
      (s.run? isLetter not_isLetter_nul).map fun (word, s) => (ofWord word, s)
    else if isDigit s.current then
      (s.run? isDigit not_isDigit_nul).map fun (digits, s) => (int digits, s)
    else
      some (illegal s.current, s.advance)

/-- The next token, if no cut fails. -/
def next? (s : Scanner) : Option (Token × Scanner) :=
  (s.passWhile isBlank not_isBlank_nul).token?

end Scanner

/-! ### Requests -/

/-- What a reader of tokens is asked for: the next token, or the next item of an iteration over the
tokens, which is none at an end of input. -/
inductive Request where
  | token | item

/-- What is answered. -/
inductive Answer where
  | token (t : Token)
  | item (t : Option Token)
deriving DecidableEq, Repr

/-- The answer to a request in front of a text, and the text behind it. -/
def answer (text : List Char) : Request → Answer × List Char
  | .token => (.token (read text).1, (read text).2)
  | .item => (.item (read? text).1, (read? text).2)

/-- The answers to requests one after the other, and the text behind them. -/
def answers (text : List Char) : List Request → List Answer × List Char
  | [] => ([], text)
  | request :: requests =>
    let (a, text) := answer text request
    let (as, text) := answers text requests
    (a :: as, text)

namespace Scanner

/-- The next item of an iteration.  An end of input is passed over all the same. -/
def item? (s : Scanner) : Option (Option Token × Scanner) :=
  s.next?.map fun
    | (endOfInput, s) => (none, s)
    | (t, s) => (some t, s)

/-- The answer of a scanner, and the scanner behind it. -/
def answer? (s : Scanner) : Request → Option (Answer × Scanner)
  | .token => s.next?.map fun (t, s) => (.token t, s)
  | .item => s.item?.map fun (t, s) => (.item t, s)

/-- The answers of a scanner to requests one after the other, and the scanner behind them. -/
def answers? (s : Scanner) : List Request → Option (List Answer × Scanner)
  | [] => some ([], s)
  | request :: requests => do
    let (a, s) ← s.answer? request
    let (as, s) ← s.answers? requests
    return (a :: as, s)

/-! ### The place of a scanner -/

/-- The text from the current character on. -/
def left (s : Scanner) : List Char :=
  s.chars.drop s.position

/-- A scanner stands in a text, or at its end. -/
structure Sound (text : List Char) (s : Scanner) : Prop where
  chars_eq : s.chars = text
  position_le : s.position ≤ s.readPosition
  readPosition_le : s.readPosition ≤ s.chars.length
  readPosition_eq : s.readPosition = min (s.position + 1) s.chars.length
  current_eq : s.current = s.chars.getD s.position nul

variable {s s' : Scanner} {text rest : List Char} {c : Char} {p : Char → Bool} {hp : ¬ p nul}

@[simp] lemma chars_advance (s : Scanner) : s.advance.chars = s.chars := rfl

@[simp] lemma position_advance (s : Scanner) : s.advance.position = s.readPosition := rfl

lemma Sound.position_le_length (h : s.Sound text) : s.position ≤ s.chars.length :=
  h.position_le.trans h.readPosition_le

lemma Sound.length_left (h : s.Sound text) : s.position + s.left.length = s.chars.length := by
  have := h.position_le_length
  rw [left, List.length_drop]
  omega

lemma Sound.current_eq_headD (h : s.Sound text) : s.current = s.left.headD nul := by
  rw [h.current_eq, left, List.headD_eq_head?_getD, List.head?_drop, List.getD_eq_getElem?_getD]

/-- The next character is taken from the tail of what is left. -/
lemma Sound.drop_readPosition (h : s.Sound text) : s.chars.drop s.readPosition = s.left.tail := by
  have hle := h.position_le_length
  rw [left, List.tail_drop, h.readPosition_eq]
  by_cases hlt : s.position < s.chars.length
  · rw [Nat.min_eq_left hlt]
  · rw [List.drop_eq_nil_of_le (by omega), List.drop_eq_nil_of_le (by omega)]

lemma Sound.peek_eq (h : s.Sound text) : s.peek = s.left.tail.headD nul := by
  rw [peek, ← h.drop_readPosition, List.headD_eq_head?_getD, List.head?_drop,
    List.getD_eq_getElem?_getD]

lemma Sound.left_advance (h : s.Sound text) : s.advance.left = s.left.tail :=
  h.drop_readPosition

/-- From a position in the text, the place behind it is one of the text again. -/
lemma sound_advance (hchars : s.chars = text) (hle : s.readPosition ≤ s.chars.length) :
    s.advance.Sound text := by
  constructor
  · exact hchars
  · simp only [Scanner.advance]
    split <;> omega
  · simp only [Scanner.advance]
    split <;> omega
  · simp only [Scanner.advance]
    split <;> omega
  · rfl

lemma Sound.advance (h : s.Sound text) : s.advance.Sound text :=
  sound_advance h.chars_eq h.readPosition_le

lemma sound_ofText (text : List Char) : (ofText text).Sound text :=
  sound_advance rfl (Nat.zero_le _)

@[simp] lemma left_ofText (text : List Char) : (ofText text).left = text := rfl

/-! ### Runs of characters -/

lemma Sound.passWhile (h : s.Sound text) (hp : ¬ p nul) :
    (s.passWhile p hp).Sound text ∧ (s.passWhile p hp).left = s.left.dropWhile p := by
  fun_induction Scanner.passWhile p hp s with
  | case1 s hcurrent ih =>
    obtain ⟨hsound, hleft⟩ := ih h.advance
    refine ⟨hsound, ?_⟩
    rw [hleft, h.left_advance]
    rw [h.current_eq_headD] at hcurrent
    -- the current character is one of the text, since NUL is not of the class
    cases hchars : s.left with
    | nil =>
      rw [hchars] at hcurrent
      exact absurd hcurrent hp
    | cons c rest =>
      rw [hchars] at hcurrent
      exact (List.dropWhile_cons_of_pos hcurrent).symm
  | case2 s hcurrent =>
    refine ⟨h, ?_⟩
    rw [h.current_eq_headD] at hcurrent
    cases hchars : s.left with
    | nil => rfl
    | cons c rest =>
      rw [hchars] at hcurrent
      exact (List.dropWhile_cons_of_neg hcurrent).symm

/-- What stands between two places of a text is cut out of it. -/
lemma Sound.slice?_eq (h : s.Sound text) (h' : s'.Sound text) {run : List Char}
    (hrun : s.left = run ++ s'.left) : s'.slice? s.position = some run := by
  have hchars : s'.chars = s.chars := h'.chars_eq.trans h.chars_eq.symm
  have hposition : s'.position = s.position + run.length := by
    have hlength := h.length_left
    have hlength' := h'.length_left
    rw [hrun, List.length_append] at hlength
    rw [hchars] at hlength'
    omega
  rw [slice?, if_pos ⟨by omega, h'.position_le_length⟩, hposition, hchars, List.drop_take,
    Nat.add_sub_cancel_left, ← left, hrun, List.take_left]

lemma Sound.run?_eq (h : s.Sound text) (hp : ¬ p nul) :
    s.run? p hp = some (String.ofList (s.left.takeWhile p), s.passWhile p hp) := by
  obtain ⟨hsound, hleft⟩ := h.passWhile hp
  have hrun : s.left = s.left.takeWhile p ++ (s.passWhile p hp).left := by
    rw [hleft, List.takeWhile_append_dropWhile]
  rw [run?, h.slice?_eq hsound hrun]
  rfl

/-! ### One token -/

lemma not_run_of_ofChar? {x : Symbol} (h : Symbol.ofChar? c = some x) :
    ¬ isLetter c ∧ ¬ isDigit c := by
  unfold Symbol.ofChar? at h
  split at h <;> first | decide | cases h

section Sign

variable {x y : Symbol} (hx : Symbol.ofChar? c = some x)

include hx

lemma startingWith_of_none (h : x.withEquals? = none) (rest : List Char) :
    startingWith c rest = (symbol x, rest) := by
  obtain ⟨hletter, hdigit⟩ := not_run_of_ofChar? hx
  simp [startingWith, hletter, hdigit, hx, h]

lemma startingWith_of_equals (h : x.withEquals? = some y) (rest : List Char) :
    startingWith c ('=' :: rest) = (symbol y, rest) := by
  obtain ⟨hletter, hdigit⟩ := not_run_of_ofChar? hx
  simp [startingWith, hletter, hdigit, hx, h]

lemma startingWith_of_ne (h : rest.headD nul ≠ '=') :
    startingWith c rest = (symbol x, rest) := by
  obtain ⟨hletter, hdigit⟩ := not_run_of_ofChar? hx
  cases rest with
  | nil => simp [startingWith, hletter, hdigit, hx]
  | cons d rest =>
    have hd : d ≠ '=' := h
    simp [startingWith, hletter, hdigit, hx, hd]

end Sign

/-- The result is a token together with a scanner at a place of the text, and these are what is read
and what is left. -/
def Gives (text : List Char) (result : Option (Token × Scanner)) (reading : Token × List Char) :
    Prop :=
  ∃ s', result = some (reading.1, s') ∧ s'.Sound text ∧ s'.left = reading.2

lemma Sound.gives_advance (h : s.Sound text) (hleft : s.left = c :: rest) (t : Token) :
    Gives text (some (t, s.advance)) (t, rest) :=
  ⟨s.advance, rfl, h.advance, by rw [h.left_advance, hleft, List.tail_cons]⟩

lemma Sound.gives_sign (h : s.Sound text) (hleft : s.left = c :: rest) {x : Symbol}
    (hx : Symbol.ofChar? c = some x) :
    Gives text (some ((s.sign x).1, (s.sign x).2.advance)) (startingWith c rest) := by
  have hpeek : s.peek = rest.headD nul := by rw [h.peek_eq, hleft, List.tail_cons]
  cases hequals : x.withEquals? with
  | none =>
    have hsign : s.sign x = (symbol x, s) := by rw [sign, hequals]
    rw [hsign, startingWith_of_none hx hequals]
    exact h.gives_advance hleft _
  | some y =>
    by_cases hhead : rest.headD nul = '='
    · have hsign : s.sign x = (symbol y, s.advance) := by
        rw [sign, hequals]
        exact if_pos (hpeek.trans hhead)
      cases rest with
      | nil => exact absurd hhead (by decide)
      | cons d rest =>
        obtain rfl : d = '=' := hhead
        rw [hsign, startingWith_of_equals hx hequals]
        have hleft' : s.advance.left = '=' :: rest := by
          rw [h.left_advance, hleft, List.tail_cons]
        exact h.advance.gives_advance hleft' _
    · have hsign : s.sign x = (symbol x, s) := by
        rw [sign, hequals]
        exact if_neg fun heq => hhead (hpeek.symm.trans heq)
      rw [hsign, startingWith_of_ne hx hhead]
      exact h.gives_advance hleft _

lemma Sound.gives_run (h : s.Sound text) (hleft : s.left = c :: rest) (hp : ¬ p nul) (hc : p c)
    (token : String → Token) :
    Gives text ((s.run? p hp).map fun (run, s) => (token run, s))
      (token (String.ofList (c :: rest.takeWhile p)), rest.dropWhile p) := by
  obtain ⟨hsound, hbehind⟩ := h.passWhile hp
  refine ⟨s.passWhile p hp, ?_, hsound, ?_⟩
  · rw [h.run?_eq hp, hleft, List.takeWhile_cons_of_pos hc]
    rfl
  · rw [hbehind, hleft, List.dropWhile_cons_of_pos hc]

lemma Sound.gives_token (h : s.Sound text) (hleft : s.left = c :: rest) :
    Gives text s.token? (startingWith c rest) := by
  have hcurrent : s.current = c := by rw [h.current_eq_headD, hleft, List.headD_cons]
  rw [token?, hcurrent]
  cases hx : Symbol.ofChar? c with
  | some x => exact h.gives_sign hleft hx
  | none =>
    show Gives text (if c = nul then _ else _) _
    split
    · next hnul =>
      rw [hnul, show startingWith nul rest = (endOfInput, rest) from rfl]
      exact h.gives_advance hleft _
    next hnul =>
    split
    · next hletter =>
      rw [startingWith, if_pos hletter]
      exact h.gives_run hleft _ hletter _
    next hletter =>
    split
    · next hdigit =>
      rw [startingWith, if_neg hletter, if_pos hdigit]
      exact h.gives_run hleft _ hdigit _
    · next hdigit =>
      have hillegal : startingWith c rest = (illegal c, rest) := by
        simp [startingWith, hletter, hdigit, hx, hnul]
      rw [hillegal]
      exact h.gives_advance hleft _

/-- The next token of a scanner is the one that is read from what it has left. -/
theorem Sound.gives_next (h : s.Sound text) : Gives text s.next? (read s.left) := by
  obtain ⟨hsound, hleft⟩ := h.passWhile not_isBlank_nul
  cases hchars : s.left.dropWhile isBlank with
  | nil =>
    rw [hchars] at hleft
    have hcurrent : (s.passWhile isBlank not_isBlank_nul).current = nul := by
      rw [hsound.current_eq_headD, hleft, List.headD_nil]
    refine ⟨(s.passWhile isBlank not_isBlank_nul).advance, ?_, hsound.advance, ?_⟩
    · rw [next?, token?, hcurrent, read_of_nil hchars]
      rfl
    · rw [hsound.left_advance, hleft, read_of_nil hchars, List.tail_nil]
  | cons c rest =>
    rw [read_of_cons hchars]
    exact hsound.gives_token (hleft.trans hchars)

/-! ### Any number of tokens -/

lemma Sound.exists_item (h : s.Sound text) :
    ∃ s', s.item? = some ((read? s.left).1, s') ∧ s'.Sound text ∧ s'.left = (read? s.left).2 := by
  obtain ⟨s', hnext, hsound, hleft⟩ := h.gives_next
  refine ⟨s', ?_, hsound, ?_⟩
  · rw [item?, hnext, read?]
    rcases read s.left with ⟨_ | _ | _ | _ | _ | _, rest⟩ <;> rfl
  · rw [hleft, read?]
    rcases read s.left with ⟨_ | _ | _ | _ | _ | _, rest⟩ <;> rfl

/-- A scanner answers a request, and stays in order. -/
lemma Sound.exists_answer (h : s.Sound text) (request : Request) :
    ∃ s', s.answer? request = some ((answer s.left request).1, s') ∧ s'.Sound text ∧
      s'.left = (answer s.left request).2 := by
  cases request with
  | token =>
    obtain ⟨s', hnext, hsound, hleft⟩ := h.gives_next
    exact ⟨s', by rw [answer?, hnext]; rfl, hsound, hleft⟩
  | item =>
    obtain ⟨s', hitem, hsound, hleft⟩ := h.exists_item
    exact ⟨s', by rw [answer?, hitem]; rfl, hsound, hleft⟩

/-- A scanner answers any number of requests, and stays in order. -/
lemma Sound.exists_answers (h : s.Sound text) (requests : List Request) :
    ∃ s', s.answers? requests = some ((answers s.left requests).1, s') ∧ s'.Sound text ∧
      s'.left = (answers s.left requests).2 := by
  induction requests generalizing s with
  | nil => exact ⟨s, rfl, h, rfl⟩
  | cons request requests ih =>
    obtain ⟨s₁, hanswer, hsound, hleft⟩ := h.exists_answer request
    obtain ⟨s₂, hanswers, hsound', hleft'⟩ := ih hsound
    rw [hleft] at hanswers hleft'
    refine ⟨s₂, ?_, hsound', hleft'⟩
    simp only [answers?, hanswer, hanswers, Option.bind_eq_bind, Option.bind_some]
    rfl

lemma length_answer_lt {text : List Char} (h : ∃ c ∈ text, ¬ isBlank c) (request : Request) :
    (answer text request).2.length < text.length := by
  have hne : text.dropWhile isBlank ≠ [] := by
    intro hnil
    obtain ⟨c, hc, hblank⟩ := h
    exact hblank (List.dropWhile_eq_nil_iff.1 hnil c hc)
  have hlt := length_read_lt hne
  cases request with
  | token => exact hlt
  | item =>
    have hrest : (read? text).2 = (read text).2 := by
      rw [read?]
      rcases read text with ⟨_ | _ | _ | _ | _ | _, rest⟩ <;> rfl
    exact hrest ▸ hlt

/-- Where less is left, the position is further on. -/
lemma Sound.position_lt (h : s.Sound text) (h' : s'.Sound text)
    (hlt : s'.left.length < s.left.length) : s.position < s'.position := by
  have hlength := h.length_left
  have hlength' := h'.length_left
  rw [h.chars_eq] at hlength
  rw [h'.chars_eq] at hlength'
  omega

/-- A scanner over any text answers any number of requests, with no cut that fails, and then it
stands at a place of the text.  It answers the next request, too, and goes on by a character at least
unless only blanks are left.  What it answers from then on is what a new scanner answers that begins
in front of what is left, and what is read from there. -/
theorem answers_sound (source : String) (requests : List Request) :
    ∃ s : Scanner,
      (ofText source.toList).answers? requests =
        some ((answers source.toList requests).1, s) ∧
      s.Sound source.toList ∧ s.left = (answers source.toList requests).2 ∧
      (∀ request, ∃ a s', s.answer? request = some (a, s') ∧
        ((∃ c ∈ s.left, ¬ isBlank c) → s.position < s'.position)) ∧
      ∀ more, (s.answers? more).map Prod.fst = some (answers s.left more).1 ∧
        ((ofText s.left).answers? more).map Prod.fst = (s.answers? more).map Prod.fst := by
  have hstart := sound_ofText source.toList
  obtain ⟨s, hanswers, hsound, hleft⟩ := hstart.exists_answers requests
  refine ⟨s, hanswers, hsound, hleft, ?_, ?_⟩
  · intro request
    obtain ⟨s', hanswer, hsound', hleft⟩ := hsound.exists_answer request
    refine ⟨_, s', hanswer, fun h => hsound.position_lt hsound' ?_⟩
    rw [hleft]
    exact length_answer_lt h request
  · intro more
    obtain ⟨s', hmore, -⟩ := hsound.exists_answers more
    obtain ⟨s'', hfresh, -⟩ := (sound_ofText s.left).exists_answers more
    rw [left_ofText] at hfresh
    rw [hmore, hfresh]
    exact ⟨rfl, rfl⟩

/-- A text with a NUL character in its midst and a sign of two characters at its end: behind four
tokens the position is 5, and the fifth takes it to the end. -/
theorem answers_sound_sign :
    ∃ s s' : Scanner, (ofText "a1 \x00; ==".toList).answers? [.token, .item, .item, .token] =
        some ([.token (ident "a"), .item (int "1"), .item none, .token (symbol .semicolon)], s) ∧
      s.left = " ==".toList ∧ s.position = 5 ∧ (∃ c ∈ s.left, ¬ isBlank c) ∧
      s.answer? .token = some (.token (symbol .equal), s') ∧ s.position < s'.position ∧
      ((ofText " ==".toList).answers? [.token]).map Prod.fst =
        some [.token (symbol .equal)] := by
  obtain ⟨s, hanswers, hsound, hleft, hnext, hmore⟩ :=
    answers_sound "a1 \x00; ==" [.token, .item, .item, .token]
  have hread : answers "a1 \x00; ==".toList [.token, .item, .item, .token] =
      ([.token (ident "a"), .item (int "1"), .item none, .token (symbol .semicolon)],
        " ==".toList) := by decide +kernel
  rw [hread] at hanswers hleft
  have hvisible : ∃ c ∈ s.left, ¬ isBlank c := ⟨'=', by simp [hleft], by decide⟩
  have hposition : s.position = 5 := by
    have hlength := hsound.length_left
    rw [hsound.chars_eq, hleft] at hlength
    simpa using hlength
  obtain ⟨hcome, hfresh⟩ := hmore [.token]
  obtain ⟨a, s', hanswer, hlt⟩ := hnext .token
  have hfirst : (answers s.left [.token]).1 = [.token (symbol .equal)] := by
    rw [hleft]
    decide +kernel
  rw [hfirst] at hcome
  obtain rfl : a = .token (symbol .equal) := by
    simpa [answers?, hanswer] using hcome
  rw [hcome, hleft] at hfresh
  exact ⟨s, s', hanswers, hleft, hposition, hvisible, hanswer, hlt hvisible, hfresh⟩

end Scanner
end Token
end TreeWalk
