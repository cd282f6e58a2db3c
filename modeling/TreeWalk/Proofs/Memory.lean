/-
# Objects in memory

`TreeWalk.Eval` takes it for granted that two objects which are not kept by the evaluator are never
one and the same.  Here is an evaluator that takes nothing for granted: each object has an address,
a new object is laid down at the next free one, and identity is the equality of addresses.

What an evaluation gives is held apart by its address (`Cell.Held`): truth values and nulls are
where the evaluator keeps them, and everything else was laid down in the course of that very
evaluation.  So the addresses tell of two operands just what their values tell
(`Evaluator.address_eq_iff`), and evaluation in memory gives what plain evaluation gives.
-/
import Mathlib.Data.Nat.Init
import TreeWalk.Proofs.Structural

namespace TreeWalk

/-! ### Memory -/

/-- What lies at an address.  A return has the address of the object that it carries. -/
inductive Cell where
  | integer (n : Int64)
  | boolean (b : Bool)
  | null
  | returned (address : Nat) (carried : Cell)
  | emptyReturn

namespace Cell

/-- The value of an object. -/
def value : Cell → Value
  | integer n => .integer n
  | boolean b => .boolean b
  | null => .null
  | returned _ c => .returned c.value
  | emptyReturn => .emptyReturn

/-- Which of the kept objects holds the same value, if one does. -/
def shared? : Cell → Option Shared
  | boolean b => some (.truth b)
  | null => some .null
  | _ => none

/-- Is there a return at an address? -/
def isReturn : Cell → Bool
  | returned _ _ | emptyReturn => true
  | _ => false

end Cell

/-- An object in memory. -/
structure Reference where
  address : Nat
  cell : Cell

/-- The value of an object. -/
abbrev Reference.value (r : Reference) : Value :=
  r.cell.value

/-- Steps in memory, which know the next free address. -/
abbrev Memory := StateT Nat (Except Fault)

/-- Lay down a new object. -/
def Memory.allocate (cell : Cell) : Memory Reference := fun next =>
  .ok (⟨next, cell⟩, next + 1)

/-! ### Evaluators -/

/-- An evaluator: where it keeps its objects. -/
structure Evaluator where
  address : Shared → Nat

namespace Evaluator

open Memory

/-- Make an evaluator. -/
def new : Memory Evaluator := do
  let t ← allocate (.boolean true)
  let f ← allocate (.boolean false)
  let n ← allocate .null
  return ⟨fun
    | .truth b => if b then t.address else f.address
    | .null => n.address⟩

variable (ev : Evaluator)

/-- The truth value that the evaluator keeps. -/
def boolean (b : Bool) : Reference :=
  ⟨ev.address (.truth b), .boolean b⟩

/-- The null that the evaluator keeps. -/
def null : Reference :=
  ⟨ev.address .null, .null⟩

/-- Does an object count as true? -/
def holds (r : Reference) : Bool :=
  r.address ≠ ev.null.address ∧ r.address ≠ (ev.boolean false).address

/-- What `!` gives. -/
def not (r : Reference) : Reference :=
  if r.address = (ev.boolean true).address then ev.boolean false
  else if r.address = (ev.boolean false).address ∨ r.address = ev.null.address then ev.boolean true
  else ev.boolean false

/-- What `-` gives. -/
def negate (r : Reference) : Memory Reference :=
  match r.cell with
  | .integer n => do allocate (.integer (← Arithmetic.negate n))
  | _ => return ev.null

/-- What an operator between two integers gives. -/
def ofIntegers (op : BinaryOp) (l r : Int64) : Memory Reference :=
  match op with
  | .add => do allocate (.integer (← Arithmetic.checked op l r (l.toInt + r.toInt)))
  | .subtract => do allocate (.integer (← Arithmetic.checked op l r (l.toInt - r.toInt)))
  | .multiply => do allocate (.integer (← Arithmetic.checked op l r (l.toInt * r.toInt)))
  | .divide => do allocate (.integer (← Arithmetic.divide l r))
  | .greater => return ev.boolean (r < l)
  | .less => return ev.boolean (l < r)
  | .equal => return ev.boolean (l = r)
  | .notEqual => return ev.boolean (l ≠ r)

/-- What an operator between two objects gives. -/
def combine (op : BinaryOp) (a b : Reference) : Memory Reference :=
  match a.cell, b.cell with
  | .integer l, .integer r => ev.ofIntegers op l r
  | _, _ =>
    match op with
    | .equal => return ev.boolean (a.address = b.address)
    | .notEqual => return ev.boolean (a.address ≠ b.address)
    | _ => return ev.null

/-- What an operator in front of an operand gives, if the operand may give nothing. -/
def unary : UnaryOp → Option Reference → Memory (Option Reference)
  | .not, some r => return some (ev.not r)
  | .not, none => return some (ev.boolean false)
  | .negate, some r => return some (← ev.negate r)
  | .negate, none => return none

/-- What an operator between two operands gives, if these may give nothing. -/
def binary (op : BinaryOp) : Option Reference → Option Reference → Memory (Option Reference)
  | some a, some b => return some (← ev.combine op a b)
  | _, _ => return none

/-- Does a condition hold?  One that gives nothing does. -/
def admits : Option Reference → Bool
  | some r => ev.holds r
  | none => true

end Evaluator

/-- Does evaluation stop here, because of a return? -/
def Reference.stops : Option Reference → Bool
  | some r => r.cell.isReturn
  | none => false

/-- The return that carries what was given. -/
def Reference.wrap : Option Reference → Cell
  | some r => .returned r.address r.cell
  | none => .emptyReturn

/-- What was given, without the wrapper of a return. -/
def Reference.unwrap : Option Reference → Option Reference
  | some ⟨_, .returned address carried⟩ => some ⟨address, carried⟩
  | some ⟨_, .emptyReturn⟩ => none
  | given => given

mutual

/-- Evaluate an expression. -/
def Evaluator.evalExpression (ev : Evaluator) : Expression → Memory (Option Reference)
  | .integer n => do return some (← Memory.allocate (.integer n))
  | .boolean b => return some (ev.boolean b)
  | .unary op e => do ev.unary op (← ev.evalExpression e)
  | .binary op l r => do
    let a ← ev.evalExpression l
    let b ← ev.evalExpression r
    ev.binary op a b
  | .ifThen c t => do
    if ev.admits (← ev.evalExpression c) then
      ev.evalEach none t
    else
      return some ev.null
  | .ifElse c t e => do
    if ev.admits (← ev.evalExpression c) then
      ev.evalEach none t
    else
      ev.evalEach none e
  | .block b => ev.evalEach none b
  | .identifier _ => return none
  | .function _ _ => return none
  | .call _ _ => return none

/-- Evaluate a statement. -/
def Evaluator.evalStatement (ev : Evaluator) : Statement → Memory (Option Reference)
  | .binding _ _ => return none
  | .returning e => do
    let given ← ev.evalExpression e
    return some (← Memory.allocate (Reference.wrap given))
  | .expression e => ev.evalExpression e
  | .block b => ev.evalEach none b

/-- Evaluate statements one after the other, behind one that gave `last`. -/
def Evaluator.evalEach (ev : Evaluator) (last : Option Reference) :
    List Statement → Memory (Option Reference)
  | [] => return last
  | s :: ss => do
    let given ← ev.evalStatement s
    if Reference.stops given then
      return given
    else
      ev.evalEach given ss

end

/-- Evaluate a program. -/
def Evaluator.eval (ev : Evaluator) (p : Program) : Memory (Option Reference) :=
  return Reference.unwrap (← ev.evalEach none p)

/-! ### Where objects are -/

/-- An object is where it belongs: where the evaluator keeps it, or in the part of the memory from
`lo` on and in front of `hi`. -/
def Cell.Held (ev : Evaluator) (lo hi : Nat) : Nat → Cell → Prop
  | address, boolean b => address = ev.address (.truth b)
  | address, null => address = ev.address .null
  | address, returned address' carried =>
    (lo ≤ address ∧ address < hi) ∧ carried.Held ev lo hi address'
  | address, _ => lo ≤ address ∧ address < hi

/-- The objects of an evaluator have their own addresses, in front of `n`. -/
structure Evaluator.Keeps (ev : Evaluator) (n : Nat) : Prop where
  injective : ∀ {s t}, ev.address s = ev.address t → s = t
  lt : ∀ s, ev.address s < n

section Held

variable {ev : Evaluator} {lo mid hi lo' hi' p q : Nat} {c d : Cell} {r a b : Reference}
  {last : Option Reference}

theorem Evaluator.Keeps.mono (h : ev.Keeps lo) (hle : lo ≤ mid) : ev.Keeps mid :=
  ⟨h.injective, fun s => Nat.lt_of_lt_of_le (h.lt s) hle⟩

theorem Cell.Held.mono (h : c.Held ev lo hi p) (hlo : lo' ≤ lo) (hhi : hi ≤ hi') :
    c.Held ev lo' hi' p := by
  have widen {p : Nat} (hp : lo ≤ p ∧ p < hi) : lo' ≤ p ∧ p < hi' :=
    ⟨Nat.le_trans hlo hp.1, Nat.lt_of_lt_of_le hp.2 hhi⟩
  induction c generalizing p with
  | boolean | null => exact h
  | integer | emptyReturn => exact widen h
  | returned q c ih => exact ⟨widen h.1, ih h.2⟩

theorem Cell.Held.address_eq {s : Shared} (h : c.Held ev lo hi p) (hs : c.shared? = some s) :
    p = ev.address s := by
  cases c <;> cases hs <;> exact h

theorem Cell.Held.bounds (h : c.Held ev lo hi p) (hs : c.shared? = none) : lo ≤ p ∧ p < hi := by
  cases c with
  | boolean | null => cases hs
  | integer | emptyReturn => exact h
  | returned => exact h.1

theorem Cell.equal_value_iff (c d : Cell) :
    c.value.equal d.value = true ↔ ∃ s, c.shared? = some s ∧ d.shared? = some s := by
  cases c <;> cases d <;> simp [value, shared?, Value.equal, eq_comm]

/-- Two objects of which the second one was laid down later are one and the same if their values
are equal, unless both are integers. -/
theorem Cell.Held.address_eq_iff (hev : ev.Keeps lo) (hc : c.Held ev lo mid p)
    (hd : d.Held ev mid hi q) (hle : lo ≤ mid) : p = q ↔ c.value.equal d.value = true := by
  rw [equal_value_iff]
  cases hs : c.shared? with
  | none =>
    have hp := hc.bounds hs
    cases ht : d.shared? with
    | none =>
      have hq := hd.bounds ht
      simp
      omega
    | some t =>
      have hq := hd.address_eq ht
      have := hev.lt t
      simp
      omega
  | some s =>
    have hp := hc.address_eq hs
    have := hev.lt s
    cases ht : d.shared? with
    | none =>
      have hq := hd.bounds ht
      simp
      omega
    | some t =>
      rw [hp, hd.address_eq ht]
      simp only [Option.some.injEq, exists_eq_left']
      exact ⟨fun h => (hev.injective h).symm, fun h => h ▸ rfl⟩

end Held

/-! ### Evaluation in memory -/

/-- What was given, with the addresses forgotten. -/
def Memory.erase (x : Except Fault (Option Reference × Nat)) : Plain :=
  x.map fun given => given.1.map Reference.value

/-- Objects where they belong, if there are any. -/
def Reference.AllHeld (ev : Evaluator) (lo hi : Nat) (given : Option Reference) : Prop :=
  ∀ r ∈ given, r.cell.Held ev lo hi r.address

/-- Steps in memory that end with what plain evaluation gives, and with objects where they belong;
`lo` is where the steps began. -/
def Memory.Agrees (ev : Evaluator) (lo : Nat) (x : Except Fault (Option Reference × Nat))
    (y : Plain) : Prop :=
  erase x = y ∧ ∀ given hi, x = .ok (given, hi) → lo ≤ hi ∧ Reference.AllHeld ev lo hi given

theorem Reference.allHeld_none {ev : Evaluator} {lo hi : Nat} : AllHeld ev lo hi none :=
  fun _ hr => nomatch hr

namespace Memory

variable {ev : Evaluator} {lo mid hi : Nat} {r a b : Reference} {given last : Option Reference}
  {x : Memory (Option Reference)} {f : Option Reference → Memory (Option Reference)} {y : Plain}
  {g : Option Value → Plain}

theorem Agrees.bind (hx : Agrees ev mid (x mid) y)
    (hf : ∀ given hi, mid ≤ hi → Reference.AllHeld ev mid hi given →
      Agrees ev lo (f given hi) (g (given.map Reference.value))) :
    Agrees ev lo ((x >>= f) mid) (y >>= g) := by
  obtain ⟨rfl, hheld⟩ := hx
  show Agrees ev lo (x mid >>= fun given => f given.1 given.2) _
  cases hxm : x mid with
  | error fault => exact ⟨rfl, fun _ _ h => nomatch h⟩
  | ok p =>
    obtain ⟨given, hi⟩ := p
    obtain ⟨hle, hgiven⟩ := hheld given hi hxm
    exact hf given hi hle hgiven

theorem Agrees.mono {x : Except Fault (Option Reference × Nat)} (h : Agrees ev mid x y)
    (hle : lo ≤ mid) : Agrees ev lo x y := by
  refine ⟨h.1, fun given hi hx => ?_⟩
  obtain ⟨hmid, hgiven⟩ := h.2 given hi hx
  exact ⟨Nat.le_trans hle hmid, fun r hr => (hgiven r hr).mono hle (Nat.le_refl _)⟩

theorem agrees_pure (hle : lo ≤ mid) (h : Reference.AllHeld ev lo mid given) :
    Agrees ev lo ((pure given : Memory _) mid) (pure (given.map Reference.value)) := by
  refine ⟨rfl, fun given' hi hx => ?_⟩
  cases hx
  exact ⟨hle, h⟩

theorem agrees_boolean (hle : lo ≤ mid) (b : Bool) :
    Agrees ev lo ((pure (some (ev.boolean b)) : Memory _) mid) (pure (some (.boolean b))) :=
  agrees_pure hle fun r hr => by cases hr; rfl

theorem agrees_null (hle : lo ≤ mid) :
    Agrees ev lo ((pure (some ev.null) : Memory _) mid) (pure (some .null)) :=
  agrees_pure hle fun r hr => by cases hr; rfl

theorem agrees_allocate {c : Cell} (hle : lo ≤ mid) (h : c.Held ev lo (mid + 1) mid) :
    Agrees ev lo ((do return some (← allocate c) : Memory _) mid) (pure (some c.value)) := by
  refine ⟨rfl, fun given hi hx => ?_⟩
  cases hx
  exact ⟨by omega, fun r hr => by cases hr; exact h⟩

/-- An integer that is computed is laid down, if there is one. -/
theorem agrees_integer (hle : lo ≤ mid) (n : Except Fault Int64) :
    Agrees ev lo
      ((do return some (← (do allocate (.integer (← n)) : Memory Reference)) : Memory _) mid)
      (do return some (← (do return .integer (← n) : Except Fault Value))) := by
  cases n with
  | error fault => exact ⟨rfl, fun _ _ h => nomatch h⟩
  | ok n => exact agrees_allocate hle ⟨hle, Nat.lt_succ_self _⟩

theorem agrees_ofIntegers (hle : lo ≤ mid) (op : BinaryOp) (l r : Int64) :
    Agrees ev lo ((do return some (← ev.ofIntegers op l r) : Memory _) mid)
      (do return some (← Value.ofIntegers op l r)) := by
  cases op with
  | greater | less | equal | notEqual => exact agrees_boolean hle _
  | _ => exact agrees_integer hle _

/-! ### What identity tells -/

theorem address_boolean_iff (hev : ev.Keeps lo) (h : r.cell.Held ev lo mid r.address)
    (hle : lo ≤ mid) (b : Bool) :
    r.address = (ev.boolean b).address ↔ r.value.equal (.boolean b) = true := by
  have hb : (Cell.boolean b).Held ev mid mid (ev.boolean b).address := rfl
  exact h.address_eq_iff hev hb hle

theorem address_null_iff (hev : ev.Keeps lo) (h : r.cell.Held ev lo mid r.address)
    (hle : lo ≤ mid) : r.address = ev.null.address ↔ r.value.equal .null = true := by
  have hnull : Cell.null.Held ev mid mid ev.null.address := rfl
  exact h.address_eq_iff hev hnull hle

theorem not_eq_boolean (hev : ev.Keeps lo) (h : r.cell.Held ev lo mid r.address)
    (hle : lo ≤ mid) : ev.not r = ev.boolean (r.value = .boolean false ∨ r.value = .null) := by
  simp only [Evaluator.not, address_boolean_iff hev h hle, address_null_iff hev h hle]
  cases r.value with
  | boolean b => cases b <;> rfl
  | _ => rfl

theorem holds_eq (hev : ev.Keeps lo) (h : r.cell.Held ev lo mid r.address) (hle : lo ≤ mid) :
    ev.holds r = r.value.holds := by
  simp only [Evaluator.holds, ne_eq, address_boolean_iff hev h hle, address_null_iff hev h hle]
  cases r.value with
  | boolean b => cases b <;> rfl
  | _ => rfl

theorem agrees_negate (hle : lo ≤ mid) (r : Reference) :
    Agrees ev lo ((do return some (← ev.negate r) : Memory _) mid)
      (do return some (← r.value.negate)) := by
  obtain ⟨p, c⟩ := r
  cases c with
  | integer n => exact agrees_integer hle _
  | _ => exact agrees_null hle

theorem agrees_combine (hev : ev.Keeps lo) (ha : a.cell.Held ev lo mid a.address)
    (hb : b.cell.Held ev mid hi b.address) (hmid : lo ≤ mid) (hhi : mid ≤ hi) (op : BinaryOp) :
    Agrees ev lo ((do return some (← ev.combine op a b) : Memory _) hi)
      (do return some (← a.value.combine op b.value)) := by
  have hle : lo ≤ hi := Nat.le_trans hmid hhi
  have hsame : decide (a.address = b.address) = a.value.equal b.value := by
    rw [Bool.eq_iff_iff, decide_eq_true_iff, ha.address_eq_iff hev hb hmid]
  obtain ⟨p, c⟩ := a
  obtain ⟨q, d⟩ := b
  -- what is done with operands that are not both integers
  have told : Agrees ev lo
      ((do return some (← (match op with
        | .equal => return ev.boolean (p = q)
        | .notEqual => return ev.boolean (p ≠ q)
        | _ => return ev.null : Memory Reference)) : Memory _) hi)
      (do return some (← (match op with
        | .equal => return .boolean (c.value.equal d.value)
        | .notEqual => return .boolean (!c.value.equal d.value)
        | _ => return .null : Except Fault Value))) := by
    cases op with
    | equal => exact hsame ▸ agrees_boolean hle _
    | notEqual =>
      rw [← hsame, ← decide_not]
      exact agrees_boolean hle _
    | _ => exact agrees_null hle
  cases c with
  | integer l =>
    cases d with
    | integer r => exact agrees_ofIntegers hle op l r
    | _ => exact told
  | _ => exact told

theorem agrees_unary (hev : ev.Keeps lo) (h : Reference.AllHeld ev lo mid given)
    (hle : lo ≤ mid) (op : UnaryOp) :
    Agrees ev lo (ev.unary op given mid) (Plain.unary op (given.map Reference.value)) := by
  cases given with
  | none =>
    cases op with
    | not => exact agrees_boolean hle false
    | negate => exact agrees_pure hle h
  | some r =>
    cases op with
    | not =>
      rw [Evaluator.unary, not_eq_boolean hev (h r rfl) hle]
      exact agrees_boolean hle _
    | negate => exact agrees_negate hle r

theorem agrees_binary (hev : ev.Keeps lo) {given' : Option Reference}
    (h : Reference.AllHeld ev lo mid given) (h' : Reference.AllHeld ev mid hi given')
    (hmid : lo ≤ mid) (hhi : mid ≤ hi) (op : BinaryOp) :
    Agrees ev lo (ev.binary op given given' hi)
      (Plain.binary op (given.map Reference.value) (given'.map Reference.value)) := by
  cases given with
  | none => exact agrees_pure (Nat.le_trans hmid hhi) Reference.allHeld_none
  | some a =>
    cases given' with
    | none => exact agrees_pure (Nat.le_trans hmid hhi) Reference.allHeld_none
    | some b => exact agrees_combine hev (h a rfl) (h' b rfl) hmid hhi op

theorem admits_eq (hev : ev.Keeps lo) (h : Reference.AllHeld ev lo mid given) (hle : lo ≤ mid) :
    ev.admits given = Plain.holds (given.map Reference.value) := by
  cases given with
  | none => rfl
  | some r => exact holds_eq hev (h r rfl) hle

theorem agrees_wrap (h : Reference.AllHeld ev lo mid given) (hle : lo ≤ mid) :
    Agrees ev lo ((do return some (← allocate (Reference.wrap given)) : Memory _) mid)
      (pure (some (Plain.wrap (given.map Reference.value)))) := by
  cases given with
  | none => exact agrees_allocate hle ⟨hle, Nat.lt_succ_self _⟩
  | some r =>
    have hcarried := (h r rfl).mono (Nat.le_refl lo) (Nat.le_succ mid)
    exact agrees_allocate hle ⟨⟨hle, Nat.lt_succ_self _⟩, hcarried⟩

theorem agrees_unwrap (h : Reference.AllHeld ev lo mid given) (hle : lo ≤ mid) :
    Agrees ev lo ((pure (Reference.unwrap given) : Memory _) mid)
      (pure (Plain.unwrap (given.map Reference.value))) := by
  cases given with
  | none => exact agrees_pure hle h
  | some r =>
    obtain ⟨p, c⟩ := r
    have hc := h _ rfl
    cases c with
    | returned q d => exact agrees_pure hle fun r hr => by cases hr; exact hc.2
    | emptyReturn => exact agrees_pure hle Reference.allHeld_none
    | _ => exact agrees_pure hle h

theorem stops_eq (given : Option Reference) :
    Reference.stops given = Plain.stops (given.map Reference.value) := by
  rcases given with _ | ⟨p, c⟩
  · rfl
  · cases c <;> rfl

end Memory

open Memory

mutual

theorem Evaluator.agrees_expression {ev : Evaluator} {lo : Nat} (hev : ev.Keeps lo) :
    ∀ e : Expression, Agrees ev lo (ev.evalExpression e lo) e.plainEval
  | .integer n => by
    rw [evalExpression, Expression.plainEval]
    exact agrees_allocate (Nat.le_refl lo) ⟨Nat.le_refl lo, Nat.lt_succ_self _⟩
  | .boolean b => by
    rw [evalExpression, Expression.plainEval]
    exact agrees_boolean (Nat.le_refl lo) b
  | .identifier _ | .function _ _ | .call _ _ => by
    rw [evalExpression, Expression.plainEval]
    exact agrees_pure (Nat.le_refl lo) Reference.allHeld_none
  | .unary op e => by
    rw [evalExpression, Expression.plainEval]
    refine (agrees_expression hev e).bind fun given mid hmid hgiven => ?_
    exact agrees_unary hev hgiven hmid op
  | .binary op l r => by
    rw [evalExpression, Expression.plainEval]
    refine (agrees_expression hev l).bind fun a mid hmid ha => ?_
    refine (agrees_expression (hev.mono hmid) r).bind fun b hi hhi hb => ?_
    exact agrees_binary hev ha hb hmid hhi op
  | .ifThen c t => by
    rw [evalExpression, Expression.plainEval]
    refine (agrees_expression hev c).bind fun given mid hmid hgiven => ?_
    rw [admits_eq hev hgiven hmid]
    cases Plain.holds (given.map Reference.value) with
    | true => exact agrees_each (hev.mono hmid) hmid Reference.allHeld_none t
    | false => exact agrees_null hmid
  | .ifElse c t e => by
    rw [evalExpression, Expression.plainEval]
    refine (agrees_expression hev c).bind fun given mid hmid hgiven => ?_
    rw [admits_eq hev hgiven hmid]
    cases Plain.holds (given.map Reference.value) with
    | true => exact agrees_each (hev.mono hmid) hmid Reference.allHeld_none t
    | false => exact agrees_each (hev.mono hmid) hmid Reference.allHeld_none e
  | .block b => by
    rw [evalExpression, Expression.plainEval]
    exact agrees_each hev (Nat.le_refl lo) Reference.allHeld_none b

theorem Evaluator.agrees_statement {ev : Evaluator} {lo : Nat} (hev : ev.Keeps lo) :
    ∀ s : Statement, Agrees ev lo (ev.evalStatement s lo) s.plainEval
  | .binding _ _ => by
    rw [evalStatement, Statement.plainEval]
    exact agrees_pure (Nat.le_refl lo) Reference.allHeld_none
  | .returning e => by
    rw [evalStatement, Statement.plainEval]
    refine (agrees_expression hev e).bind fun given mid hmid hgiven => ?_
    exact agrees_wrap hgiven hmid
  | .expression e => by
    rw [evalStatement, Statement.plainEval]
    exact agrees_expression hev e
  | .block b => by
    rw [evalStatement, Statement.plainEval]
    exact agrees_each hev (Nat.le_refl lo) Reference.allHeld_none b

theorem Evaluator.agrees_each {ev : Evaluator} {lo mid : Nat} {last : Option Reference}
    (hev : ev.Keeps mid) (hle : lo ≤ mid) (hlast : Reference.AllHeld ev lo mid last) :
    ∀ ss : List Statement,
      Agrees ev lo (ev.evalEach last ss mid)
        (Statement.plainEvalEach (last.map Reference.value) ss)
  | [] => by
    rw [evalEach, Statement.plainEvalEach]
    exact agrees_pure hle hlast
  | s :: ss => by
    rw [evalEach, Statement.plainEvalEach]
    refine ((agrees_statement hev s).bind fun given hi hhi hgiven => ?_).mono hle
    rw [stops_eq]
    cases Plain.stops (given.map Reference.value) with
    | true => exact agrees_pure hhi hgiven
    | false => exact agrees_each (hev.mono hhi) hhi hgiven ss

end

theorem Evaluator.agrees_eval {ev : Evaluator} {lo : Nat} (hev : ev.Keeps lo) (p : Program) :
    Agrees ev lo (ev.eval p lo) (Program.plainEval p) := by
  refine (agrees_each hev (Nat.le_refl lo) Reference.allHeld_none p).bind fun given mid hmid h => ?_
  exact agrees_unwrap h hmid

/-- An evaluator was made at some time before `n` was the next free address. -/
def Evaluator.MadeBefore (ev : Evaluator) (n : Nat) : Prop :=
  ∃ m m', Evaluator.new m = .ok (ev, m') ∧ m' ≤ n

theorem Evaluator.MadeBefore.keeps {ev : Evaluator} {n : Nat} (h : ev.MadeBefore n) :
    ev.Keeps n := by
  obtain ⟨m, m', hnew, hle⟩ := h
  cases hnew
  constructor
  · intro s t hst
    rcases s with (_ | _) | _ <;> rcases t with (_ | _) | _ <;> simp at hst ⊢ <;> omega
  · intro s
    rcases s with (_ | _) | _
    · show m + 1 < n
      omega
    · show m < n
      omega
    · show m + 2 < n
      omega

/-- On every program, statement and expression, evaluation gives what plain evaluation gives: in
memory, by an evaluator that was made before, and where identity is left to `Object.same`. -/
theorem erase_eq_plainEval {ev : Evaluator} {n : Nat} (h : ev.MadeBefore n) :
    (∀ p : Program, erase (ev.eval p n) = Program.plainEval p ∧
      (Program.eval p).erase = Program.plainEval p) ∧
    (∀ s : Statement, erase (ev.evalStatement s n) = s.plainEval ∧ s.eval.erase = s.plainEval) ∧
    (∀ e : Expression, erase (ev.evalExpression e n) = e.plainEval ∧
      e.eval.erase = e.plainEval) := by
  refine ⟨fun p => ⟨?_, Program.erase_eval p⟩, fun s => ⟨?_, s.erase_eval⟩,
    fun e => ⟨?_, e.erase_eval⟩⟩
  · exact (Evaluator.agrees_eval h.keeps p).1
  · exact (Evaluator.agrees_statement h.keeps s).1
  · exact (Evaluator.agrees_expression h.keeps e).1

/-- A comparison with a truth value that is computed. -/
theorem erase_eval_comparison :
    ∃ ev : Evaluator, ev.MadeBefore 3 ∧
      erase (ev.eval [.expression (.binary .equal (.binary .less (.integer 1) (.integer 2))
        (.unary .not (.unary .negate (.boolean true))))] 3) = .ok (some (.boolean true)) ∧
      (Program.eval [.expression (.binary .equal (.binary .less (.integer 1) (.integer 2))
        (.unary .not (.unary .negate (.boolean true))))]).erase = .ok (some (.boolean true)) := by
  refine ⟨_, ⟨0, 3, rfl, Nat.le_refl 3⟩, ?_⟩
  rw [((erase_eq_plainEval ⟨0, 3, rfl, Nat.le_refl 3⟩).1 _).1,
    ((erase_eq_plainEval ⟨0, 3, rfl, Nat.le_refl 3⟩).1 _).2]
  exact ⟨by cbv, by cbv⟩

end TreeWalk
