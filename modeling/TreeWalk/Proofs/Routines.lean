/-
# Routines without bounds

The parsers of the grammar count: parts lie in one another to a given depth, and lists have a
given length.  Here the same reading is done by routines that call one another for as long as it
takes, and that are chosen by two tables: one for the token that an expression begins with, one for
the token behind an operand.  A routine looks at its token once more, and what it does with a token
that the table does not send to it is left open (`Strays`).

How deep the calls go is not bounded, so there is no such thing as the routines; but there are
their unfoldings.  `Routines.unfolded strays r n` calls to a depth of `n` and then goes on with `r`,
whatever `r` is.  In front of `k` tokens no call goes deeper than `2 * k + 2`, no stray is met, and
what is read is what the grammar says (`Routines.agree_unfolded`).
-/
import TreeWalk.Proofs.Extension

namespace TreeWalk

open TreeWalk.Parser TreeWalk.Cursor

/-- What the routines do with a token that no table sends to them. -/
structure Strays where
  unary : Parser Expression
  binary : Expression → Parser Expression
  integer : Parser Expression
  boolean : Parser Expression

/-- Routines that read by calling one another. -/
structure Routines where
  /-- An expression above a level. -/
  expression : Level → Parser Expression
  /-- What continues an expression above a level. -/
  continued : Level → Expression → Parser Expression
  /-- A block, braces included. -/
  block : Parser (List Statement)
  /-- The statements of a block and the brace that closes it. -/
  statements : Parser (List Statement)
  /-- The parameters behind the first one, each with a comma in front. -/
  moreParameters : Parser (List String)
  /-- The arguments behind the first one, each with a comma in front. -/
  moreArguments : Parser (List Expression)

namespace Routines

variable (strays : Strays) (r : Routines)

/-- The routines for the parts of a construct. -/
def parts : Parts where
  expression := r.expression
  block := r.block

/-! ### Routines that a table chooses -/

/-- A number. -/
def readInteger : Parser Expression :=
  called .integer do
    match ← peek with
    | .int digits => Grammar.integer digits
    | _ => strays.integer

/-- `true` or `false`. -/
def readBoolean : Parser Expression := do
  match ← peek with
  | .keyword .trueWord =>
    next
    return .boolean true
  | .keyword .falseWord =>
    next
    return .boolean false
  | _ => strays.boolean

/-- An operator in front of its operand. -/
def readUnary : Parser Expression :=
  called .unary do
    match ← peek with
    | .symbol .bang => Grammar.unary r.parts .not
    | .symbol .minus => Grammar.unary r.parts .negate
    | _ => strays.unary

/-- An operator of a level behind its left operand, and the right operand. -/
def readOperator (level : Level) (op : BinaryOp) (left : Expression) : Parser Expression := do
  next
  let right ← r.expression level
  return .binary op left right

/-- An operator behind its left operand. -/
def readBinary (left : Expression) : Parser Expression :=
  called .binary do
    match ← peek with
    | .symbol .equal => readOperator r .equality .equal left
    | .symbol .notEqual => readOperator r .equality .notEqual left
    | .symbol .less => readOperator r .comparison .less left
    | .symbol .greater => readOperator r .comparison .greater left
    | .symbol .plus => readOperator r .sum .add left
    | .symbol .minus => readOperator r .sum .subtract left
    | .symbol .star => readOperator r .product .multiply left
    | .symbol .slash => readOperator r .product .divide left
    | _ => strays.binary left

/-- A name. -/
def readIdentifier : Parser Expression := do
  let name ← Grammar.parameter
  return .identifier name

/-! ### Lists and blocks -/

section Lists

variable {α : Type}

/-- The items of a list behind the first one, read by `more` behind the next one. -/
def readMore (item : Parser α) (more : Parser (List α)) : Parser (List α) := do
  if (← peek) = .symbol .comma then
    next
    let a ← item
    let as ← more
    return a :: as
  else
    return []

/-- The items of a list in parentheses, the first of which was read before. -/
def readItems (item : Parser α) (more : Parser (List α)) : Parser (List α) := do
  if (← peek) = .symbol .rightParen then
    next
    return []
  else
    let first ← item
    let rest ← more
    expect (.symbol .rightParen)
    return first :: rest

end Lists

/-- The statements of a block and the brace that closes it. -/
def readStatements : Parser (List Statement) := do
  match ← peek with
  | .symbol .rightBrace =>
    next
    leave
    return []
  | .endOfInput => Grammar.unclosed
  | _ =>
    let s ← Grammar.statement r.parts
    let ss ← r.statements
    return s :: ss

/-- A block: statements in braces. -/
def readBlock : Parser (List Statement) := do
  expect (.symbol .leftBrace)
  enter
  r.statements

/-! ### Operands and what continues them -/

/-- A block where an expression is wanted. -/
def readBlockExpression : Parser Expression := do
  let body ← readBlock r
  return .block body

/-- A conditional. -/
def readConditional : Parser Expression := do
  next
  expect (.symbol .leftParen)
  let condition ← r.expression .lowest
  expect (.symbol .rightParen)
  let consequence ← readBlock r
  if (← peek) = .keyword .elseWord then
    next
    let alternative ← readBlock r
    return .ifElse condition consequence alternative
  else
    return .ifThen condition consequence

/-- A function. -/
def readFunction : Parser Expression := do
  next
  expect (.symbol .leftParen)
  let parameters ← readItems Grammar.parameter r.moreParameters
  let body ← readBlock r
  return .function parameters body

/-- The arguments of a call behind the function. -/
def readCall (callee : Expression) : Parser Expression := do
  next
  let arguments ← readItems (r.expression .lowest) r.moreArguments
  return .call callee arguments

/-- The routine for an operand, by the token that it begins with. -/
def operandRule? : Token → Option (Parser Expression)
  | .ident _ => some readIdentifier
  | .int _ => some (readInteger strays)
  | .keyword .trueWord | .keyword .falseWord => some (readBoolean strays)
  | .symbol .bang | .symbol .minus => some (readUnary strays r)
  | .symbol .leftParen => some (Grammar.grouped r.parts)
  | .symbol .leftBrace => some (readBlockExpression r)
  | .keyword .ifWord => some (readConditional r)
  | .keyword .fnWord => some (readFunction r)
  | _ => none

/-- The level and the routine for what continues an operand, by the token that it begins with. -/
def continuationRule? : Token → Option (Level × (Expression → Parser Expression))
  | .symbol .equal | .symbol .notEqual => some (.equality, readBinary strays r)
  | .symbol .less | .symbol .greater => some (.comparison, readBinary strays r)
  | .symbol .plus | .symbol .minus => some (.sum, readBinary strays r)
  | .symbol .slash | .symbol .star => some (.product, readBinary strays r)
  | .symbol .leftParen => some (.call, readCall r)
  | _ => none

/-- The routine for a continuation. -/
def readContinuation : Continuation → Expression → Parser Expression
  | .operator _ => readBinary strays r
  | .arguments => readCall r

/-- What continues an expression above a level. -/
def readContinued (level : Level) (left : Expression) : Parser Expression := do
  match continuationRule? strays r (← peek) with
  | some (tightness, rule) =>
    if level < tightness then
      let e ← rule left
      r.continued level e
    else
      return left
  | none => return left

/-- An expression above a level. -/
def readExpression (level : Level) : Parser Expression :=
  called .expression do
    match operandRule? strays r (← peek) with
    | some rule =>
      let left ← rule
      r.continued level left
    | none => Grammar.noOperand

/-! ### Unfolding -/

/-- The routines that call `r` wherever one routine calls another. -/
def unfold : Routines where
  expression := readExpression strays r
  continued := readContinued strays r
  block := readBlock r
  statements := readStatements r
  moreParameters := readMore Grammar.parameter r.moreParameters
  moreArguments := readMore (r.expression .lowest) r.moreArguments

/-- The routines that call one another to a depth of `n`, and `r` from there on. -/
def unfolded : Nat → Routines
  | 0 => r
  | n + 1 => unfold strays (unfolded n)

/-- Routines that do what is done at the end of the input. -/
def atEnd : Routines where
  expression _ := called .expression Grammar.noOperand
  continued _ left := pure left
  block := fail (.expected (.symbol .leftBrace) .endOfInput)
  statements := Grammar.unclosed
  moreParameters := pure []
  moreArguments := pure []

end Routines

/-- Strays are refused, each with the error that its routine has for it. -/
def Strays.refused : Strays where
  unary := do fail (.noExpressionAt (← peek))
  binary _ := do fail (.noExpressionAt (← peek))
  integer := do fail (.expected (.int "") (← peek))
  boolean := do fail (.expected (.keyword .trueWord) (← peek))

/-! ### Parsers that do the same at a place -/

namespace Parser

variable {α β : Type} {c : Cursor} {p q : Parser α} {f g : α → Parser β}

/-- Two parsers do the same at the place `c`. -/
def Same (c : Cursor) (p q : Parser α) : Prop :=
  p c = q c

lemma Same.refl (c : Cursor) (p : Parser α) : Same c p p :=
  rfl

lemma Same.trans {p' : Parser α} (h : Same c p p') (h' : Same c p' q) : Same c p q :=
  Eq.trans h h'

lemma Same.symm (h : Same c p q) : Same c q p :=
  Eq.symm h

lemma Same.bind (hp : Same c p q) (hf : ∀ a c₁, q.Ends c (.ok a) c₁ → Same c₁ (f a) (g a)) :
    Same c (p >>= f) (q >>= g) := by
  rw [Same] at hp ⊢
  rcases hq : q c with ⟨e | a, c₁, calls⟩
  · rw [bind_of_error hq, bind_of_error (hp.trans hq)]
  · have hend : q.Ends c (.ok a) c₁ := by
      rw [Ends, hq]
      exact ⟨rfl, rfl⟩
    rw [bind_of_ok hq, bind_of_ok (hp.trans hq), hf a c₁ hend]

/-- Parsers in front of one that goes on alike. -/
lemma Same.then (hp : Same c p q) (f : α → Parser β) : Same c (p >>= f) (q >>= f) :=
  hp.bind fun _ _ _ => .refl _ _

lemma Same.called {x : Routine} (h : Same c p q) : Same c (called x p) (called x q) := by
  rw [Same, called_apply, called_apply, h]

lemma Same.peek_bind {f g : Token → Parser β} (h : Same c (f c.peek) (g c.peek)) :
    Same c (peek >>= f) (peek >>= g) :=
  h

lemma Same.of_peek {f : Token → Parser α} (h : Same c (f c.peek) q) : Same c (peek >>= f) q :=
  h

lemma Same.next_bind {f g : Unit → Parser β} (h : Same c.next (f ()) (g ())) :
    Same c (next >>= f) (next >>= g) := by
  rw [Same, Parser.next_bind, Parser.next_bind, h]

lemma Same.expect_bind {t : Token} {f g : Unit → Parser β}
    (h : c.peek = t → Same c.next (f ()) (g ())) :
    Same c (expect t >>= f) (expect t >>= g) := by
  refine .bind (.refl _ _) fun _ c₁ hend => ?_
  rw [expect, ends_peek_bind] at hend
  split at hend
  · next ht =>
    obtain ⟨-, rfl⟩ := hend
    exact h ht
  · cases hend.1

end Parser

/-- In front of at most `k` tokens, two choices of parsers for the parts do the same. -/
structure Parts.Same (k : Nat) (p q : Parts) : Prop where
  expression : ∀ {c}, c.rest.length ≤ k → ∀ lv, Parser.Same c (p.expression lv) (q.expression lv)
  block : ∀ {c}, c.rest.length ≤ k → Parser.Same c p.block q.block

namespace Parts.Same

variable {k : Nat} {p q : Parts} {c : Cursor}

lemma binding (h : p.Same k q) (hk : c.rest.length ≤ k) :
    Parser.Same c (Grammar.binding p) (Grammar.binding q) := by
  refine .next_bind (.peek_bind ?_)
  split
  · refine .next_bind (.expect_bind fun _ => (h.expression ?_ _).then _)
    simp
    omega
  · exact .refl _ _

lemma returning (h : p.Same k q) (hk : c.rest.length ≤ k) :
    Parser.Same c (Grammar.returning p) (Grammar.returning q) := by
  refine .next_bind ((h.expression ?_ _).then _)
  simp
  omega

theorem statement (h : p.Same k q) (hk : c.rest.length ≤ k) :
    Parser.Same c (Grammar.statement p) (Grammar.statement q) := by
  refine .called (.peek_bind ?_)
  split
  · exact h.binding hk
  · exact h.returning hk
  · exact (h.block hk).then _
  · exact .called ((h.expression hk _).then _)

lemma ends_statement_iff {r : Except ParseError Statement} {c' : Cursor} (h : p.Same k q)
    (hk : c.rest.length ≤ k) :
    (Grammar.statement p).Ends c r c' ↔ (Grammar.statement q).Ends c r c' := by
  rw [Ends, Ends, h.statement hk]

lemma grouped (h : p.Same k q) (hk : c.next.rest.length ≤ k) :
    Parser.Same c (Grammar.grouped p) (Grammar.grouped q) :=
  .next_bind ((h.expression hk _).then _)

lemma unary (h : p.Same k q) (hk : c.next.rest.length ≤ k) (op : UnaryOp) :
    Parser.Same c (Grammar.unary p op) (Grammar.unary q op) :=
  .next_bind ((h.expression hk _).then _)

end Parts.Same

namespace Routines

variable {strays : Strays} {r : Routines} {k d n : Nat} {c : Cursor}

/-! ### In front of the end -/

lemma readExpression_of_end (hc : c.peek = .endOfInput) (lv : Level) :
    readExpression strays r lv c = (called .expression Grammar.noOperand : Parser _) c := by
  refine Same.called ?_
  rw [Same, peek_bind, hc]
  rfl

lemma readContinued_of_end (hc : c.peek = .endOfInput) (lv : Level) (left : Expression) :
    readContinued strays r lv left c = ⟨.ok left, c, []⟩ := by
  rw [readContinued, peek_bind, hc]
  rfl

lemma readBlock_of_end (hc : c.peek = .endOfInput) :
    readBlock r c = ⟨.error (.expected (.symbol .leftBrace) .endOfInput), c, []⟩ := by
  have hexpect : (expect (.symbol .leftBrace) : Parser Unit) c =
      ⟨.error (.expected (.symbol .leftBrace) .endOfInput), c, []⟩ := by
    rw [expect, peek_bind, hc]
    rfl
  rw [readBlock, bind_of_error hexpect]

lemma readStatements_of_end (hc : c.peek = .endOfInput) :
    readStatements r c = (Grammar.unclosed : Parser _) c := by
  rw [readStatements, peek_bind, hc]

lemma readMore_of_end {α : Type} {item : Parser α} {more : Parser (List α)}
    (hc : c.peek = .endOfInput) : readMore item more c = ⟨.ok [], c, []⟩ := by
  rw [readMore, peek_bind, hc]
  rfl

/-! ### The tables -/

lemma readBinary_same (strays : Strays) (r : Routines) (left : Expression) {op : BinaryOp}
    (hc : c.peek = .symbol op.sign) :
    Same c (readBinary strays r left) (called .binary (Grammar.binary r.parts op left)) := by
  refine .called ?_
  rw [Same, peek_bind, hc]
  cases op <;> rfl

/-- The table has the continuations of the grammar, with their levels. -/
lemma continuationRule?_eq (t : Token) : continuationRule? strays r t =
    (Continuation.ofToken? t).map fun x => (x.level, readContinuation strays r x) := by
  cases t with
  | symbol s => cases s <;> rfl
  | illegal c | endOfInput | ident x | int x | keyword x => rfl

/-! ### The routines in front of some tokens -/

/-- In front of at most `k` tokens, the routines read what the grammar says. -/
structure Agree (r : Routines) (k : Nat) : Prop where
  expression : ∀ {c d}, c.rest.length ≤ k → k ≤ d → ∀ lv,
    Same c (r.expression lv) ((Parts.ofDepth d).expression lv)
  continued : ∀ {c d n}, c.rest.length ≤ k → k ≤ d → c.rest.length ≤ n → ∀ lv left,
    Same c (r.continued lv left) (Grammar.continued (.ofDepth d) lv n left)
  block : ∀ {c d}, c.rest.length ≤ k → k ≤ d → Same c r.block (Parts.ofDepth d).block
  moreParameters : ∀ {c n}, c.rest.length ≤ k → c.rest.length ≤ n →
    Same c r.moreParameters (moreItems Grammar.parameter n)
  moreArguments : ∀ {c d n}, c.rest.length ≤ k → k ≤ d → c.rest.length ≤ n →
    Same c r.moreArguments (moreItems ((Parts.ofDepth d).expression .lowest) n)

/-- In front of at most `k` tokens, the statements of a block are read as the grammar says. -/
def AgreeOnStatements (r : Routines) (k : Nat) : Prop :=
  ∀ {c d n}, c.rest.length ≤ k → k ≤ d → c.rest.length ≤ n →
    Same c r.statements (Grammar.statements (.ofDepth d) n)

lemma Agree.parts (h : r.Agree k) (hd : k ≤ d) : r.parts.Same k (.ofDepth d) :=
  ⟨fun hc => h.expression hc hd, fun hc => h.block hc hd⟩

lemma readBlock_same (hs : r.AgreeOnStatements k) (hd : k ≤ d) (hc : c.rest.length ≤ k + 1) :
    Same c (readBlock r) (Grammar.block (.ofDepth d)) := by
  refine .expect_bind fun hbrace => ?_
  have hlength := length_eq_next (by simp [hbrace] : c.peek ≠ .endOfInput)
  exact hs (by change c.next.rest.length ≤ k; omega) hd (Nat.le_refl _)

section Lists

variable {α : Type} {item item' : Parser α} {more : Parser (List α)}

lemma readItems_same (hitem : Same c item item')
    (hmore : ∀ {a c₁}, item'.Ends c (.ok a) c₁ → Same c₁ more (moreItems item' c₁.rest.length)) :
    Same c (readItems item more) (items item') := by
  refine .peek_bind ?_
  split
  · exact .refl _ _
  · exact hitem.bind fun a c₁ ha => (hmore ha).then _

end Lists

lemma readConditional_same (h : r.Agree k) (hs : r.AgreeOnStatements k) (hd : k ≤ d)
    (hc : c.next.rest.length ≤ k) :
    Same c (readConditional r) (Grammar.conditional (.ofDepth d)) := by
  have hsound := Parts.sound_ofDepth d
  refine .next_bind (.expect_bind fun _ => ?_)
  have hnext : c.next.next.rest.length ≤ c.next.rest.length := by simp
  refine .bind (h.expression (by omega) hd _) fun condition c₁ hcondition => ?_
  have hlt := (hsound.expression hcondition).clears.length_lt
  have hnext₁ : c₁.next.rest.length ≤ c₁.rest.length := by simp
  refine .expect_bind fun _ => ?_
  refine .bind (readBlock_same hs hd (by omega)) fun consequence c₂ hconsequence => ?_
  have hlt₂ := (Grammar.block_sound hsound hconsequence).clears.length_lt
  have hnext₂ : c₂.next.rest.length ≤ c₂.rest.length := by simp
  refine .peek_bind ?_
  split
  · exact .next_bind ((readBlock_same hs hd (by omega)).then _)
  · exact .refl _ _

lemma readFunction_same (h : r.Agree k) (hs : r.AgreeOnStatements k) (hd : k ≤ d)
    (hc : c.next.rest.length ≤ k) :
    Same c (readFunction r) (Grammar.function (.ofDepth d)) := by
  refine .next_bind (.expect_bind fun _ => ?_)
  have hnext : c.next.next.rest.length ≤ c.next.rest.length := by simp
  have hitems : Same c.next.next (readItems Grammar.parameter r.moreParameters)
      (items Grammar.parameter) := by
    refine readItems_same (.refl _ _) fun ha => h.moreParameters ?_ (Nat.le_refl _)
    have hlt := (Grammar.parameter_clears ha).length_lt
    omega
  refine hitems.bind fun names c₁ hnames => ?_
  have hlt := (Grammar.items_clears Grammar.parameter_clears hnames).length_lt
  exact (readBlock_same hs hd (by omega)).then _

lemma readCall_same (h : r.Agree k) (hd : k ≤ d) (hc : c.next.rest.length ≤ k)
    (callee : Expression) :
    Same c (readCall r callee) (Grammar.call (.ofDepth d) callee) := by
  have hitems : Same c.next (readItems (r.expression .lowest) r.moreArguments)
      (items ((Parts.ofDepth d).expression .lowest)) := by
    refine readItems_same (h.expression hc hd _) fun ha => h.moreArguments ?_ hd (Nat.le_refl _)
    have hlt := ((Parts.sound_ofDepth d).expression ha).clears.length_lt
    omega
  exact .next_bind (hitems.then _)

lemma readIdentifier_same {name : String} (hc : c.peek = .ident name) :
    Same c readIdentifier (next >>= fun _ => pure (.identifier name)) := by
  have hname : (Grammar.parameter : Parser String) c = ⟨.ok name, c.next, []⟩ := by
    rw [Grammar.parameter, peek_bind, hc]
    rfl
  rw [Same, readIdentifier, bind_of_ok hname]
  rfl

lemma readInteger_same {digits : String} (hc : c.peek = .int digits) :
    Same c (readInteger strays) (called .integer (Grammar.integer digits)) := by
  refine .called ?_
  rw [Same, peek_bind, hc]

lemma readUnary_same (h : r.Agree k) (hd : k ≤ d) (hk : c.next.rest.length ≤ k) (op : UnaryOp)
    (hc : c.peek = .symbol op.sign) :
    Same c (readUnary strays r) (called .unary (Grammar.unary (.ofDepth d) op)) := by
  have hop : Same c (readUnary strays r) (called .unary (Grammar.unary r.parts op)) := by
    refine .called ?_
    rw [Same, peek_bind, hc]
    cases op <;> rfl
  exact hop.trans (.called ((h.parts hd).unary hk op))

/-- The routine that the table has for an operand reads it. -/
lemma operandRule?_same (h : r.Agree k) (hs : r.AgreeOnStatements k) (hd : k ≤ d)
    (hk : c.rest.length ≤ k + 1) {rule : Parser Expression}
    (hrule : operandRule? strays r c.peek = some rule) :
    Same c rule (Grammar.operand (.ofDepth d)) := by
  have hnext (hne : c.peek ≠ .endOfInput) : c.next.rest.length ≤ k := by
    have hlength := length_eq_next hne
    omega
  rw [Same, Grammar.operand, peek_bind]
  unfold operandRule? at hrule
  split at hrule <;> cases hrule
  · next name hc =>
    rw [hc]
    exact readIdentifier_same hc
  · next hc =>
    rw [hc]
    exact readInteger_same hc
  · next hc =>
    rw [hc, readBoolean, peek_bind, hc]
  · next hc =>
    rw [hc, readBoolean, peek_bind, hc]
  · next hc =>
    rw [hc]
    exact readUnary_same h hd (hnext (by simp [hc])) .not hc
  · next hc =>
    rw [hc]
    exact readUnary_same h hd (hnext (by simp [hc])) .negate hc
  · next hc =>
    rw [hc]
    exact (h.parts hd).grouped (hnext (by simp [hc]))
  · next hc =>
    rw [hc]
    exact (readBlock_same hs hd hk).then _
  · next hc =>
    rw [hc]
    exact readConditional_same h hs hd (hnext (by simp [hc]))
  · next hc =>
    rw [hc]
    exact readFunction_same h hs hd (hnext (by simp [hc]))

/-- The table has no routine for the tokens that begin no expression. -/
lemma operandRule?_none (h : operandRule? strays r c.peek = none) (p : Parts)
    (f : Expression → Parser Expression) :
    Same c Grammar.noOperand (Grammar.operand p >>= f) := by
  have hoperand : Grammar.operand p c = (Grammar.noOperand : Parser _) c := by
    rw [Grammar.operand, peek_bind]
    cases hc : c.peek with
    | illegal x | endOfInput => rfl
    | ident x | int x =>
      rw [hc] at h
      cases h
    | symbol s =>
      rw [hc] at h
      cases s <;> first | rfl | cases h
    | keyword w =>
      rw [hc] at h
      cases w <;> first | rfl | cases h
  rw [Same, bind_of_error hoperand]
  rfl

lemma readContinuation_same (h : r.Agree k) (hd : k ≤ d) (hk : c.next.rest.length ≤ k)
    {x : Continuation} (hx : Continuation.ofToken? c.peek = some x) (left : Expression) :
    Same c (readContinuation strays r x left) (Grammar.continuation (.ofDepth d) left x) := by
  cases x with
  | operator op =>
    have hop := readBinary_same strays r left (Continuation.eq_sign_of_ofToken? hx)
    exact hop.trans (.called (.next_bind ((h.expression hk hd _).then _)))
  | arguments => exact readCall_same h hd hk left

lemma readContinued_same (h : r.Agree k) (hd : k ≤ d) (hk : c.rest.length ≤ k + 1)
    (hn : c.rest.length ≤ n) (lv : Level) (left : Expression) :
    Same c (readContinued strays r lv left) (Grammar.continued (.ofDepth d) lv n left) := by
  by_cases hc : c.peek = .endOfInput
  · rw [Same, Grammar.continued_of_end hc, readContinued_of_end hc]
  have hlength := length_eq_next hc
  obtain ⟨n, rfl⟩ : ∃ m, n = m + 1 := ⟨n - 1, by omega⟩
  refine .peek_bind ?_
  rw [continuationRule?_eq]
  rcases hx : Continuation.ofToken? c.peek with _ | x
  · exact .refl _ _
  · show Same c (if lv < x.level then _ else _) (if lv < x.level then _ else _)
    split
    · refine .bind (readContinuation_same h hd (by omega) hx left) fun e c₁ he => ?_
      have hlt := (Grammar.continuation_clears (Parts.sound_ofDepth d) hx he).length_lt
      exact h.continued (by omega) hd (by omega) lv e
    · exact .refl _ _

lemma readExpression_same (h : r.Agree k) (hs : r.AgreeOnStatements k) (hd : k ≤ d)
    (hk : c.rest.length ≤ k + 1) (lv : Level) :
    Same c (readExpression strays r lv) (Grammar.expression (.ofDepth d) lv) := by
  refine .called ?_
  rw [Same, peek_bind]
  rcases hrule : operandRule? strays r c.peek with _ | rule
  · exact operandRule?_none hrule _ _
  · refine Same.bind (operandRule?_same h hs hd hk hrule) fun left c₁ hleft => ?_
    have hlt := (Grammar.operand_sound (Parts.sound_ofDepth d) lv hleft).clears.length_lt
    exact h.continued (by omega) hd (Nat.le_refl _) lv left

lemma readMore_same {α : Type} {item item' : Parser α} {more : Parser (List α)}
    (hitem : c.next.rest.length ≤ k → Same c.next item item')
    (hclears : ∀ {a c₁}, item'.Ends c.next (.ok a) c₁ → c.next.Clears c₁)
    (hmore : ∀ {c₁ m}, c₁.rest.length ≤ k → c₁.rest.length ≤ m → Same c₁ more (moreItems item' m))
    (hk : c.rest.length ≤ k + 1) (hn : c.rest.length ≤ n) :
    Same c (readMore item more) (moreItems item' n) := by
  by_cases hc : c.peek = .endOfInput
  · rw [Same, Grammar.moreItems_of_end hc, readMore_of_end hc]
  have hlength := length_eq_next hc
  obtain ⟨n, rfl⟩ : ∃ m, n = m + 1 := ⟨n - 1, by omega⟩
  refine .peek_bind ?_
  split
  · refine .next_bind (.bind (hitem (by omega)) fun a c₁ ha => ?_)
    have hlt := (hclears ha).length_lt
    exact (hmore (by omega) (by omega)).then _
  · exact .refl _ _

/-- A statement stands in front, and others behind it. -/
lemma readStatements_of_ne (hbrace : c.peek ≠ .symbol .rightBrace) (hend : c.peek ≠ .endOfInput) :
    Same c (readStatements r)
      (Grammar.statement r.parts >>= fun s => r.statements >>= fun ss => pure (s :: ss)) := by
  rw [readStatements]
  refine .of_peek ?_
  split
  · next hc => exact absurd hc hbrace
  · next hc => exact absurd hc hend
  · exact .refl _ _

lemma statements_of_ne {p : Parts} (hbrace : c.peek ≠ .symbol .rightBrace)
    (hend : c.peek ≠ .endOfInput) : Same c (Grammar.statements p (n + 1))
      (Grammar.statement p >>= fun s => Grammar.statements p n >>= fun ss => pure (s :: ss)) := by
  rw [Grammar.statements]
  refine .of_peek ?_
  split
  · next hc => exact absurd hc hbrace
  · next hc => exact absurd hc hend
  · exact .refl _ _

lemma readStatements_same (h : r.Agree (k + 1)) (hs : r.AgreeOnStatements k) (hd : k + 1 ≤ d)
    (hk : c.rest.length ≤ k + 1) (hn : c.rest.length ≤ n) :
    Same c (readStatements r) (Grammar.statements (.ofDepth d) n) := by
  by_cases hc : c.peek = .endOfInput
  · rw [Same, Grammar.statements_of_end hc, readStatements_of_end hc]
  have hlength := length_eq_next hc
  obtain ⟨n, rfl⟩ : ∃ m, n = m + 1 := ⟨n - 1, by omega⟩
  by_cases hbrace : c.peek = .symbol .rightBrace
  · rw [Same, readStatements, Grammar.statements, peek_bind, peek_bind, hbrace]
  · refine (readStatements_of_ne hbrace hc).trans (.trans ?_ (statements_of_ne hbrace hc).symm)
    refine .bind ((h.parts hd).statement hk) fun s c₁ hstatement => ?_
    have hlt := (Grammar.statement_sound (Parts.sound_ofDepth d) hstatement).length_lt
    exact (hs (by omega) (by omega) (by omega)).then _

/-! ### Unfolding -/

/-- In front of no token, nothing is called. -/
lemma agree_unfold_zero (strays : Strays) (r : Routines) : (unfold strays r).Agree 0 where
  expression hk _ lv :=
    have hc := peek_of_length_eq_zero (Nat.le_zero.1 hk)
    (readExpression_of_end hc lv).trans (Parts.expression_of_end hc _).symm
  continued hk _ _ lv left :=
    have hc := peek_of_length_eq_zero (Nat.le_zero.1 hk)
    (readContinued_of_end hc lv left).trans (Grammar.continued_of_end hc _).symm
  block hk _ :=
    have hc := peek_of_length_eq_zero (Nat.le_zero.1 hk)
    (readBlock_of_end hc).trans (Parts.block_of_end hc _).symm
  moreParameters hk _ :=
    have hc := peek_of_length_eq_zero (Nat.le_zero.1 hk)
    (readMore_of_end hc).trans (Grammar.moreItems_of_end hc _).symm
  moreArguments hk _ _ :=
    have hc := peek_of_length_eq_zero (Nat.le_zero.1 hk)
    (readMore_of_end hc).trans (Grammar.moreItems_of_end hc _).symm

lemma agreeOnStatements_unfold_zero (strays : Strays) (r : Routines) :
    (unfold strays r).AgreeOnStatements 0 := by
  intro c d n hk _ _
  have hc := peek_of_length_eq_zero (Nat.le_zero.1 hk)
  exact (readStatements_of_end hc).trans (Grammar.statements_of_end hc _).symm

lemma Agree.unfold (h : r.Agree k) (hs : r.AgreeOnStatements k) :
    (unfold strays r).Agree (k + 1) where
  expression := by
    intro c d hk hd lv
    obtain ⟨d, rfl⟩ : ∃ m, d = m + 1 := ⟨d - 1, by omega⟩
    exact readExpression_same h hs (by omega) hk lv
  continued hk hd hn lv left := readContinued_same h (by omega) hk hn lv left
  block := by
    intro c d hk hd
    obtain ⟨d, rfl⟩ : ∃ m, d = m + 1 := ⟨d - 1, by omega⟩
    exact readBlock_same hs (by omega) hk
  moreParameters hk hn :=
    readMore_same (fun _ => .refl _ _) Grammar.parameter_clears h.moreParameters hk hn
  moreArguments := by
    intro c d n hk hd hn
    have hclears {c a c'} (ha : ((Parts.ofDepth d : Parts).expression .lowest).Ends c (.ok a) c') :
        c.Clears c' := ((Parts.sound_ofDepth d).expression ha).clears
    exact readMore_same (fun hk => h.expression hk (by omega) _) hclears
      (fun hk hm => h.moreArguments hk (by omega) hm) hk hn

/-- However the routines go on below, and whatever they do with strays, they read as the grammar
says if they call one another to a depth of twice the number of tokens and one more. -/
theorem agree_unfolded (strays : Strays) (r : Routines) (k : Nat) :
    (∀ n, 2 * k + 1 ≤ n → (r.unfolded strays n).Agree k) ∧
      ∀ n, 2 * k + 2 ≤ n → (r.unfolded strays n).AgreeOnStatements k := by
  -- the statements of a block are called for behind its brace, and call for an expression or a
  -- block without reading a token first: two calls in one another for each token
  induction k with
  | zero =>
    constructor
    · intro n hn
      obtain ⟨n, rfl⟩ : ∃ m, n = m + 1 := ⟨n - 1, by omega⟩
      exact agree_unfold_zero strays _
    · intro n hn
      obtain ⟨n, rfl⟩ : ∃ m, n = m + 1 := ⟨n - 1, by omega⟩
      exact agreeOnStatements_unfold_zero strays _
  | succ k ih =>
    obtain ⟨hagree, hstatements⟩ := ih
    have hagree' (n : Nat) (hn : 2 * (k + 1) + 1 ≤ n) : (r.unfolded strays n).Agree (k + 1) := by
      obtain ⟨n, rfl⟩ : ∃ m, n = m + 1 := ⟨n - 1, by omega⟩
      exact (hagree n (by omega)).unfold (hstatements n (by omega))
    refine ⟨hagree', fun n hn => ?_⟩
    obtain ⟨n, rfl⟩ : ∃ m, n = m + 1 := ⟨n - 1, by omega⟩
    intro c d m hk hd hm
    exact readStatements_same (hagree' n (by omega)) (hstatements n (by omega)) hd hk hm

/-- In front of `k` tokens, the routines do for the parts of a construct what the grammar does. -/
theorem same_unfolded (strays : Strays) (r : Routines) (hn : 2 * k + 1 ≤ n) :
    (r.unfolded strays n).parts.Same k (.ofDepth k) :=
  ((agree_unfolded strays r k).1 n hn).parts (Nat.le_refl k)

end Routines
end TreeWalk
