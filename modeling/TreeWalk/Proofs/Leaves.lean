/-
# The leaves of a tree

The names and numbers of a tree are its *leaves*.  They are the names and numbers among the tokens
of any form of the tree, in the same order (`Form.leaves_eq`); the names of bindings and parameters
are leaves like those of identifiers.

A statement that is read has a form where it stands, and one that is refused gives nothing to the
program.  So the leaves of a program are names and numbers of the text in their order, with some
left out (`Reading.Visits.leaves_sublist`), and whatever is true of such tokens of a text is true of
them: no error before, behind or between the statements makes a leaf that is not well formed.
-/
import Mathlib.Tactic.Common
import TreeWalk.Proofs.Truthful

namespace TreeWalk

/-! ### Leaves -/

/-- A name or a number. -/
inductive Leaf where
  | name (text : String)
  | number (value : Int64)
deriving DecidableEq, Repr

/-- A name is made of letters and is no keyword, and a number lies between zero and the greatest
integer. -/
def Leaf.WellFormed : Leaf → Prop
  | name text =>
    text ≠ "" ∧ (∀ c ∈ text.toList, Token.isLetter c) ∧ ∀ word : Keyword, text ≠ word.text
  | number value => 0 ≤ value.toInt ∧ value.toInt ≤ Integer.greatest

mutual

/-- The leaves of an expression, as they are written. -/
def Expression.leaves : Expression → List Leaf
  | .identifier name => [.name name]
  | .integer n => [.number n]
  | .boolean _ => []
  | .unary _ e => e.leaves
  | .binary _ l r => l.leaves ++ r.leaves
  | .ifThen c t => c.leaves ++ Statement.leavesOfEach t
  | .ifElse c t e => c.leaves ++ (Statement.leavesOfEach t ++ Statement.leavesOfEach e)
  | .block b => Statement.leavesOfEach b
  | .function names b => names.map .name ++ Statement.leavesOfEach b
  | .call f es => f.leaves ++ Expression.leavesOfEach es

/-- The leaves of a statement. -/
def Statement.leaves : Statement → List Leaf
  | .binding name e => .name name :: e.leaves
  | .returning e => e.leaves
  | .expression e => e.leaves
  | .block b => Statement.leavesOfEach b

/-- The leaves of statements, one after the other. -/
def Statement.leavesOfEach : List Statement → List Leaf
  | [] => []
  | s :: ss => s.leaves ++ Statement.leavesOfEach ss

/-- The leaves of expressions, one after the other. -/
def Expression.leavesOfEach : List Expression → List Leaf
  | [] => []
  | e :: es => e.leaves ++ Expression.leavesOfEach es

end

/-- The leaves of a phrase. -/
def Phrase.leaves : Phrase → List Leaf
  | expression e _ _ => e.leaves
  | arguments es => Expression.leavesOfEach es
  | furtherArguments es => Expression.leavesOfEach es
  | statement s _ => s.leaves
  | statements ss => Statement.leavesOfEach ss

namespace Token

/-- The leaf that a token is, if it is one.  A number that is too large is none. -/
def leaf? : Token → Option Leaf
  | ident name => some (.name name)
  | int digits => (Integer.ofInt? (Decimal.value digits.toList)).map .number
  | _ => none

/-- The leaves among some tokens. -/
def leaves (ts : List Token) : List Leaf :=
  ts.filterMap leaf?

variable {t : Token} {ts us : List Token} {text : List Char} {x : Leaf}

@[simp] lemma leaves_append (ts us : List Token) : leaves (ts ++ us) = leaves ts ++ leaves us :=
  List.filterMap_append

@[simp] lemma leaves_nil : leaves [] = [] := rfl

@[simp] lemma leaves_symbol (s : Symbol) (ts : List Token) :
    leaves (symbol s :: ts) = leaves ts := rfl

@[simp] lemma leaves_keyword (k : Keyword) (ts : List Token) :
    leaves (keyword k :: ts) = leaves ts := rfl

@[simp] lemma leaves_ident (name : String) (ts : List Token) :
    leaves (ident name :: ts) = .name name :: leaves ts := rfl

@[simp] lemma leaves_inParens (ts : List Token) : leaves (Form.inParens ts) = leaves ts := by
  simp [Form.inParens]

@[simp] lemma leaves_inBraces (ts : List Token) : leaves (Form.inBraces ts) = leaves ts := by
  simp [Form.inBraces]

@[simp] lemma leaves_parameters (names : List String) :
    leaves (Form.parameters names) = names.map .name := by
  induction names with
  | nil => rfl
  | cons name names ih =>
    cases names with
    | nil => rfl
    | cons name' names => simpa [Form.parameters] using ih

lemma leaves_sublist (h : ts <:+ us) : (leaves ts).Sublist (leaves us) :=
  h.sublist.filterMap leaf?

/-- A leaf of tokens that a text may have is well formed. -/
lemma wellFormed_of_leaf? (ht : t.MayOccur) (h : t.leaf? = some x) : x.WellFormed := by
  cases t with
  | ident name =>
    cases h
    have hname : isName name := ht.resolve_right (by simp)
    simp only [isName, Bool.and_eq_true, decide_eq_true_eq, List.all_eq_true,
      Option.isNone_iff_eq_none] at hname
    obtain ⟨⟨hne, hletters⟩, hword⟩ := hname
    refine ⟨hne, hletters, ?_⟩
    rintro word rfl
    rw [Keyword.ofText?_text] at hword
    cases hword
  | int digits =>
    obtain ⟨n, hn, rfl⟩ := Option.map_eq_some_iff.1 h
    rw [Integer.ofInt?_eq_some_iff] at hn
    exact ⟨by omega, Integer.toInt_le_greatest n⟩
  | illegal | endOfInput | symbol | keyword => cases h

lemma wellFormed_of_mem_leaves (h : x ∈ leaves (stream text)) : x.WellFormed := by
  obtain ⟨t, ht, hx⟩ := List.mem_filterMap.1 h
  exact wellFormed_of_leaf? (mayOccur_of_mem_stream ht) hx

end Token

/-- The leaves of a tree are those of the tokens of its forms. -/
theorem Form.leaves_eq {ph : Phrase} {ts : List Token} (h : Form ph ts) :
    ph.leaves = Token.leaves ts := by
  induction h with
  | integer h =>
    simp [Phrase.leaves, Expression.leaves, Token.leaves, Token.leaf?,
      Integer.ofInt?_eq_some_iff.2 h]
  | _ =>
    simp_all [Phrase.leaves, Expression.leaves, Statement.leaves, Expression.leavesOfEach,
      Statement.leavesOfEach, truth]

/-! ### Readings -/

/-- The leaves of a statement are those of the tokens between its two ends. -/
lemma Cursor.HoldsStatement.exists_leaves {c c' : Cursor} {s : Statement}
    (h : c.HoldsStatement s c') : ∃ ts, c.rest = ts ++ c'.rest ∧ s.leaves = Token.leaves ts := by
  obtain ⟨ts, hform, hpass⟩ := h.cons .nil (Passes.refl c')
  rw [List.append_nil] at hpass
  refine ⟨ts, hpass.rest_eq, ?_⟩
  rw [← hform.leaves_eq, Phrase.leaves, Statement.leavesOfEach, Statement.leavesOfEach,
    List.append_nil]

open Cursor in
/-- The leaves of the statements that are read are leaves of the text, in their order. -/
theorem Reading.Visits.leaves_sublist {c c' : Cursor} {ss : Program} {es : List ParseError} {k : Nat}
    (h : Visits (.ofDepth k) c ss es c') (hk : c.rest.length ≤ k) :
    (Statement.leavesOfEach ss).Sublist (Token.leaves c.rest) := by
  induction h with
  | refl c => exact List.nil_sublist _
  | @read c c₁ _ s ss _ hne h _ ih =>
    have hs := Grammar.statement_sound (Parts.sound_ofDepth k) h
    have hlt := hs.length_lt
    obtain ⟨ts, hrest, hleaves⟩ := hs.exists_leaves
    rw [hrest, Token.leaves_append, Statement.leavesOfEach, hleaves]
    exact (ih (by omega)).append_left _
  | @refused c c₁ _ _ _ _ hne h _ ih =>
    have hrefuses := Grammar.statement_refused (Parts.refused_ofDepth k) hk h
    have hlt := length_recover_lt hk hne h
    have hsuffix : c₁.recover.rest <:+ c.rest :=
      (behind_suffix _ _ _).trans (Refuses.rest_suffix hrefuses)
    exact (ih (by omega)).trans (Token.leaves_sublist hsuffix)

/-! ### Sessions -/

namespace Session

/-- The leaves of every program that a session returns are well formed, at whatever depth they
stand, over any text, with any number of tokens skipped in front, beside any errors, and whatever
was asked before.  All of them are leaves of the text, in the order of the text. -/
theorem leaves_wellFormed (source : String) (n : Nat) (steps : List Step) :
    let s := (ofText (Token.skipped n source.toList)).after steps
    (∀ x ∈ Statement.leavesOfEach s.readProgram.1, x.WellFormed) ∧
      (Statement.leavesOfEach s.readProgram.1).Sublist
        (Token.leaves (Token.stream source.toList)) := by
  intro s
  have hsound : s.Sound source.toList := (sound_ofText_skipped n source.toList).after steps
  obtain ⟨c, hvisits, -⟩ :=
    Reading.exists_visits (Nat.le_refl s.cursor.rest.length) (Nat.le_refl _)
  have hleaves := (hvisits.leaves_sublist (Nat.le_refl _)).trans
    (Token.leaves_sublist hsound.suffix)
  rw [program_readProgram]
  exact ⟨fun x hx => Token.wellFormed_of_mem_leaves (hleaves.subset hx), hleaves⟩

/-- Statements beside errors and behind a NUL character: a number that is too large, a keyword for a
name and a missing operand leave nothing behind, and the parameter is a well-formed name. -/
theorem leaves_wellFormed_beside_errors :
    let source := "let x = 1 + ; 9223372036854775808; fn(a_B) \x7b -007 \x7d; let if = 2; \x00 y"
    let leaves := [Leaf.name "a_B", .number 7]
    Statement.leavesOfEach ((ofText source.toList).after []).readProgram.1 = leaves ∧
      (∀ x ∈ leaves, x.WellFormed) ∧ Leaf.name "a_B" ∈ leaves := by
  intro source leaves
  have hread : Statement.leavesOfEach ((ofText source.toList).after []).readProgram.1 = leaves := by
    decide +kernel
  obtain ⟨hwellFormed, -⟩ := leaves_wellFormed source 0 []
  exact ⟨hread, fun x hx => hwellFormed x (hread.symm ▸ hx), List.mem_cons_self⟩

end Session

end TreeWalk
