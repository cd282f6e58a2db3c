/-
# Which texts are accepted

A source text is accepted when it is read without an error.  The tokens of an accepted text are
a form of the program that is read (`form_of_parse`), and whatever text has a form of a program
as its tokens is read as that program (`parse_of_form`).  So the texts that are accepted are those
that the grammar of `TreeWalk.Proofs.Form` describes, and each of them has one program.
-/
import Mathlib
import TreeWalk.Proofs.Form.Complete
import TreeWalk.Proofs.Reading

namespace TreeWalk

open Cursor

variable {c c' : Cursor} {ss : List Statement} {ts : List Token} {k : Nat}

/-- A form of statements is read, if nothing stands behind it. -/
lemma Reading.visits_of_form (hform : Form (.statements ss) ts) (hpass : c.Passes ts c')
    (hend : c'.peek = .endOfInput) (hk : c.rest.length ≤ k) :
    Visits (.ofDepth k) c ss [] c' := by
  induction ss generalizing c ts with
  | nil =>
    cases hform
    cases hpass
    exact .refl _
  | cons s ss ih =>
    rw [← List.append_nil ts] at hpass
    obtain ⟨us, c₁, hs, hss, hpass'⟩ := exists_holdsStatement hform hpass
      (by rw [List.headD_nil, hend]; rfl) (by simp [hend]) (by simp [hend])
    have hlt := hs.length_lt
    have hne : c.peek ≠ .endOfInput := by
      intro he
      have := hs.beginsStatement
      rw [he] at this
      cases this
    rw [List.append_nil] at hpass'
    exact .read hne (Grammar.statement_complete (Parts.complete_ofDepth k) hk hs)
      (ih hss hpass' (by omega))

/-- What is read without an error is a form. -/
lemma Reading.Visits.exists_form (h : Visits (.ofDepth k) c ss [] c') :
    ∃ ts, Form (.statements ss) ts ∧ c.Passes ts c' := by
  generalize hes : ([] : List ParseError) = es at h
  induction h with
  | refl c => exact ⟨[], .nil, .refl c⟩
  | read hne h _ ih =>
    obtain ⟨us, hus, hpass⟩ := ih hes
    rw [← List.append_nil us] at hpass
    obtain ⟨ts, hts, hpass'⟩ := (Grammar.statement_sound (Parts.sound_ofDepth k) h).cons hus hpass
    rw [List.append_nil] at hpass'
    exact ⟨ts, hts, hpass'⟩
  | refused => cases hes

/-- A source text whose tokens are a form of a program is read as that program. -/
theorem parse_of_form {source : String} {p : Program}
    (h : Form (.statements p) (Token.ofSource source)) : parse source = (p, []) := by
  obtain ⟨c', hpass, hend⟩ := passes_start_iff.2 (rfl : Token.ofSource source = _)
  exact parse_eq_iff.2 ⟨c', Reading.visits_of_form h hpass hend (Nat.le_refl _), hend⟩

/-- Products bind more tightly than sums, and signs in front of operands more tightly still. -/
theorem parse_sum_of_product :
    Form (.statements [.expression (.binary .add (.unary .negate (.integer 1))
        (.binary .multiply (.integer 2) (.integer 3)))]) (Token.ofSource "-1+2*(03);") ∧
      parse "-1+2*(03);" = ([.expression (.binary .add (.unary .negate (.integer 1))
        (.binary .multiply (.integer 2) (.integer 3)))], []) := by
  have htokens : Token.ofSource "-1+2*(03);" = [.symbol .minus, .int "1", .symbol .plus, .int "2",
      .symbol .star, .symbol .leftParen, .int "03", .symbol .rightParen, .symbol .semicolon] := by
    cbv
  have hnegated : Form (.expression (.unary .negate (.integer 1)) .unary false)
      [.symbol .minus, .int "1"] := .unary .negate (by decide) (.integer (by cbv))
  have hproduct : Form (.expression (.binary .multiply (.integer 2) (.integer 3)) .product false)
      [.int "2", .symbol .star, .symbol .leftParen, .int "03", .symbol .rightParen] :=
    .binary .multiply (by decide) (by decide) (.integer (by cbv)) (.grouped (.integer (by cbv)))
  refine (fun hform => ⟨hform, parse_of_form hform⟩) ?_
  rw [htokens]
  exact .ended
    (.expression (.binary .add (by decide) (by decide) hnegated hproduct) (by decide)) .nil

/-- The tokens of a source text that is read without an error are a form of its program. -/
theorem form_of_parse {source : String} {p : Program} (h : parse source = (p, [])) :
    Form (.statements p) (Token.ofSource source) := by
  obtain ⟨c', hvisits, hend⟩ := parse_eq_iff.1 h
  obtain ⟨ts, hform, hpass⟩ := hvisits.exists_form
  have hts : Token.ofSource source = ts := passes_start_iff.1 ⟨c', hpass, hend⟩
  exact hts ▸ hform

/-- A binding and a call, with no semicolon behind either. -/
theorem form_binding_call :
    parse "let f = fn(x) \x7b if (x) \x7b 1 \x7d \x7d f(true)" =
        ([.binding "f" (.function ["x"] [.expression (.ifThen (.identifier "x")
          [.expression (.integer 1)])]),
          .expression (.call (.identifier "f") [.boolean true])], []) ∧
      Form (.statements [.binding "f" (.function ["x"] [.expression (.ifThen (.identifier "x")
          [.expression (.integer 1)])]), .expression (.call (.identifier "f") [.boolean true])])
        (Token.ofSource "let f = fn(x) \x7b if (x) \x7b 1 \x7d \x7d f(true)") := by
  refine (fun hparse => ⟨hparse, form_of_parse hparse⟩) ?_
  cbv

end TreeWalk
