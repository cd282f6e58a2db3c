/-
# Shared objects

An evaluator is asked again and again: for what a program gives, a statement or an expression, for
a truth value, for null.  Whatever it was asked for before, each truth value and each null that it
gives, also inside the wrappers of returns, is the one that it keeps, and nothing else that it
gives is one of the objects it keeps (`Evaluator.session_shared`).

A single answer holds objects where they belong (`Evaluator.agrees_answer`).  What the induction
along a session carries is that the evaluator's own objects lie in front of the next free address;
an answer only moves that address on.
-/
import TreeWalk.Proofs.Memory

namespace TreeWalk

open Memory

/-! ### Sessions -/

/-- What an evaluator can be asked for. -/
inductive Request where
  | program (p : Program)
  | statement (s : Statement)
  | expression (e : Expression)
  | boolean (b : Bool)
  | null

/-- What an evaluator gives, as evaluation has it. -/
def Request.result : Request → Result
  | program p => Program.eval p
  | statement s => s.eval
  | expression e => e.eval
  | boolean b => return some (.truth b)
  | null => return some .nothing

/-- An answer: objects in memory, or a fault. -/
abbrev Answer := Except Fault (Option Reference)

namespace Evaluator

/-- What an evaluator gives in memory. -/
def answer (ev : Evaluator) : Request → Memory (Option Reference)
  | .program p => ev.eval p
  | .statement s => ev.evalStatement s
  | .expression e => ev.evalExpression e
  | .boolean b => return some (ev.boolean b)
  | .null => return some ev.null

/-- The answers to requests one after the other, from a free address on.  What was laid down for an
answer that became a fault is dropped again, and its addresses are free. -/
def session (ev : Evaluator) : List Request → Nat → List Answer
  | [], _ => []
  | q :: qs, next =>
    match ev.answer q next with
    | .ok (given, next') => .ok given :: ev.session qs next'
    | .error fault => .error fault :: ev.session qs next

end Evaluator

/-! ### The objects of an answer -/

/-- An object at an address, and those that it carries inside wrappers of returns. -/
def Cell.layers : Nat → Cell → List Reference
  | address, returned address' carried =>
    ⟨address, returned address' carried⟩ :: carried.layers address'
  | address, c => [⟨address, c⟩]

/-- The objects of an answer, at any depth. -/
def Answer.objects : Answer → List Reference
  | .ok (some r) => r.cell.layers r.address
  | _ => []

/-- An object as evaluation knows it.  Truth values and nulls are kept if they are where the
evaluator keeps its own, and copies elsewhere. -/
def Cell.object (ev : Evaluator) : Nat → Cell → Object
  | _, integer n => .integer n
  | address, boolean b =>
    .boolean b (if address = ev.address (.truth b) then .kept else .copied)
  | address, null => .null (if address = ev.address .null then .kept else .copied)
  | _, returned address' carried => .returned (carried.object ev address')
  | _, emptyReturn => .emptyReturn

/-- An answer as evaluation knows it. -/
def Answer.result (ev : Evaluator) (x : Answer) : Result :=
  x.map (Option.map fun r => r.cell.object ev r.address)

section Held

variable {ev : Evaluator} {lo hi p : Nat} {c : Cell} {r : Reference}

/-- Objects inside of one that is where it belongs are where they belong. -/
theorem Cell.Held.of_mem_layers (h : c.Held ev lo hi p) (hr : r ∈ c.layers p) :
    r.cell.Held ev lo hi r.address := by
  induction c generalizing p with
  | returned q d ih =>
    rcases List.mem_cons.mp hr with rfl | hr
    · exact h
    · exact ih h.2 hr
  | _ =>
    obtain rfl := List.mem_singleton.mp hr
    exact h

theorem Cell.Held.object_eq (h : c.Held ev lo hi p) : c.object ev p = c.value.object := by
  induction c generalizing p with
  | integer | emptyReturn => rfl
  | boolean b => exact congrArg (Object.boolean b) (if_pos h)
  | null => exact congrArg Object.null (if_pos h)
  | returned q d ih => exact congrArg Object.returned (ih h.2)

/-- Objects that are where they belong are told apart from the kept ones by their values. -/
theorem Cell.Held.address_eq_address_iff (hev : ev.Keeps lo) (h : c.Held ev lo hi p)
    (s : Shared) : p = ev.address s ↔ c.shared? = some s := by
  constructor
  · intro hp
    cases ht : c.shared? with
    | none =>
      have hbounds := h.bounds ht
      have hlt := hev.lt s
      omega
    | some t =>
      have hst : ev.address t = ev.address s := (h.address_eq ht).symm.trans hp
      rw [hev.injective hst]
  · intro hs
    exact h.address_eq hs

end Held

/-! ### What a session gives -/

variable {ev : Evaluator} {lo : Nat}

/-- Evaluation gives the objects of the values that it gives. -/
theorem Request.embed_erase_result (q : Request) : q.result.erase.embed = q.result := by
  cases q with
  | program p => rw [result, Program.erase_eval, Program.eval_eq_embed]
  | statement s => rw [result, Statement.erase_eval, Statement.eval_eq_embed]
  | expression e => rw [result, Expression.erase_eval, Expression.eval_eq_embed]
  | boolean | null => rfl

/-- One answer holds the objects that evaluation gives, where they belong. -/
theorem Evaluator.agrees_answer (hev : ev.Keeps lo) (q : Request) :
    Agrees ev lo (ev.answer q lo) q.result.erase := by
  cases q with
  | program p =>
    rw [Request.result, Program.erase_eval]
    exact agrees_eval hev p
  | statement s =>
    rw [Request.result, Statement.erase_eval]
    exact agrees_statement hev s
  | expression e =>
    rw [Request.result, Expression.erase_eval]
    exact agrees_expression hev e
  | boolean b => exact agrees_boolean (Nat.le_refl lo) b
  | null => exact agrees_null (Nat.le_refl lo)

theorem Reference.AllHeld.result_eq {hi : Nat} {given : Option Reference}
    (h : Reference.AllHeld ev lo hi given) :
    Answer.result ev (.ok given) = Plain.embed (.ok (given.map Reference.value)) := by
  cases given with
  | none => rfl
  | some r => exact congrArg (fun o => Except.ok (some o)) (h r rfl).object_eq

/-- Every answer of a session is the one that evaluation gives, and its objects are where they
belong. -/
theorem Evaluator.session_held (hev : ev.Keeps lo) (qs : List Request) :
    (ev.session qs lo).map (Answer.result ev) = qs.map Request.result ∧
      ∀ x ∈ ev.session qs lo, ∃ hi, ∀ r ∈ x.objects, r.cell.Held ev lo hi r.address := by
  induction qs generalizing lo with
  | nil => exact ⟨rfl, fun x hx => nomatch hx⟩
  | cons q qs ih =>
    obtain ⟨herase, hheld⟩ := agrees_answer hev q
    rw [session, List.map_cons, ← q.embed_erase_result, ← herase]
    cases hanswer : ev.answer q lo with
    | error fault =>
      obtain ⟨hresults, hobjects⟩ := ih hev
      refine ⟨congrArg (List.cons _) hresults, fun x hx => ?_⟩
      rcases List.mem_cons.mp hx with rfl | hx
      · exact ⟨lo, fun r hr => nomatch hr⟩
      · exact hobjects x hx
    | ok p =>
      obtain ⟨given, mid⟩ := p
      obtain ⟨hmid, hgiven⟩ := hheld given mid hanswer
      -- the free address moves on, and the kept objects stay in front of it
      obtain ⟨hresults, hobjects⟩ := ih (hev.mono hmid)
      refine ⟨List.cons_eq_cons.mpr ⟨hgiven.result_eq, hresults⟩, fun x hx => ?_⟩
      rcases List.mem_cons.mp hx with rfl | hx
      · refine ⟨mid, fun r hr => ?_⟩
        cases given with
        | none => exact nomatch hr
        | some a => exact (hgiven a rfl).of_mem_layers hr
      · obtain ⟨hi, hx⟩ := hobjects x hx
        exact ⟨hi, fun r hr => (hx r hr).mono hmid (Nat.le_refl hi)⟩

/-- The objects of a session are told apart from the kept ones by their values. -/
theorem Evaluator.address_eq_address_iff (hev : ev.Keeps lo) {qs : List Request} {r : Reference}
    (hr : r ∈ (ev.session qs lo).flatMap Answer.objects) (s : Shared) :
    r.address = ev.address s ↔ r.cell.shared? = some s := by
  obtain ⟨x, hx, hr⟩ := List.mem_flatMap.mp hr
  obtain ⟨hi, hheld⟩ := (session_held hev qs).2 x hx
  exact (hheld r hr).address_eq_address_iff hev s

theorem Cell.value_eq_iff {c d : Cell} {s t : Shared} (hs : c.shared? = some s)
    (ht : d.shared? = some t) : c.value = d.value ↔ s = t := by
  cases c <;> cases hs <;> cases d <;> cases ht <;> simp [value]

/-- In every session with an evaluator that was made before: the answers are those of evaluation;
every truth value and every null in them, at any depth, is the one that the evaluator keeps, and
no other object in them is one that it keeps; and of truth values and nulls, two are one and the
same if and only if their values are equal. -/
theorem Evaluator.session_shared {n : Nat} (h : ev.MadeBefore n) (qs : List Request) :
    (ev.session qs n).map (Answer.result ev) = qs.map Request.result ∧
    (∀ r ∈ (ev.session qs n).flatMap Answer.objects,
      (∀ b, r.cell = .boolean b → r = ev.boolean b) ∧
      (r.cell = .null → r = ev.null) ∧
      (r.cell.shared? = none → ∀ s, r.address ≠ ev.address s)) ∧
    (∀ r ∈ (ev.session qs n).flatMap Answer.objects,
      ∀ r' ∈ (ev.session qs n).flatMap Answer.objects,
      r.cell.shared? ≠ none → r'.cell.shared? ≠ none →
        (r.address = r'.address ↔ r.value = r'.value)) := by
  refine ⟨(session_held h.keeps qs).1, ?_, ?_⟩
  · rintro ⟨p, c⟩ hr
    have haddress := address_eq_address_iff h.keeps hr
    refine ⟨?_, ?_, ?_⟩
    · rintro b rfl
      obtain rfl := (haddress (.truth b)).mpr rfl
      rfl
    · rintro rfl
      obtain rfl := (haddress .null).mpr rfl
      rfl
    · intro hnone s hs
      rw [(haddress s).mp hs] at hnone
      cases hnone
  · intro r hr r' hr' hs ht
    obtain ⟨s, hs⟩ := Option.ne_none_iff_exists'.mp hs
    obtain ⟨t, ht⟩ := Option.ne_none_iff_exists'.mp ht
    rw [(address_eq_address_iff h.keeps hr s).mpr hs, (address_eq_address_iff h.keeps hr' t).mpr ht,
      Cell.value_eq_iff hs ht]
    exact ⟨fun hst => h.keeps.injective hst, fun hst => congrArg ev.address hst⟩

/-- The truth value that a comparison gives, and the one that comes in the wrapper of a return. -/
theorem Evaluator.session_shared_comparison :
    ∃ (ev : Evaluator) (a b : Reference) (p : Nat), ev.MadeBefore 3 ∧
      ev.session [.expression (.binary .less (.integer 1) (.integer 2)),
          .statement (.returning (.unary .not (.unary .negate (.boolean true))))] 3 =
        [.ok (some a), .ok (some ⟨p, .returned b.address b.cell⟩)] ∧
      a = ev.boolean true ∧ a.address = b.address ∧ ∀ s, p ≠ ev.address s := by
  refine ⟨_, ⟨0, .boolean true⟩, ⟨0, .boolean true⟩, 5, ⟨0, 3, rfl, Nat.le_refl 3⟩, rfl, ?_⟩
  obtain ⟨-, hshared, hsame⟩ := session_shared ⟨0, 3, rfl, Nat.le_refl 3⟩
    [.expression (.binary .less (.integer 1) (.integer 2)),
      .statement (.returning (.unary .not (.unary .negate (.boolean true))))]
  refine ⟨?_, ?_, ?_⟩
  · exact (hshared _ (.head _)).1 true rfl
  · exact (hsame _ (.head _) _ (.tail _ (.tail _ (.head _))) nofun nofun).mpr rfl
  · exact (hshared _ (.tail _ (.head _))).2.2 rfl

end TreeWalk
