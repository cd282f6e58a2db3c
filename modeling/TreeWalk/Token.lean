/-
# Tokens

A program text is a row of words, numbers and signs.  Each of them is a *token*: a sign or a
keyword, whose spelling is fixed, a name, a number, or a character that no rule admits.  One
more token stands for the end of the text.

A token has two texts.  Its *literal* is what stands in the program text; its *kind* is what a
message calls it.
-/
namespace TreeWalk

/-- A sign with a fixed spelling. -/
inductive Symbol where
  | assign | plus | minus | bang | star | slash | less | greater | equal | notEqual
  | comma | semicolon | leftParen | rightParen | leftBrace | rightBrace
deriving DecidableEq, Repr

namespace Symbol

/-- The spelling of a sign. -/
def text : Symbol → String
  | assign => "="
  | plus => "+"
  | minus => "-"
  | bang => "!"
  | star => "*"
  | slash => "/"
  | less => "<"
  | greater => ">"
  | equal => "=="
  | notEqual => "!="
  | comma => ","
  | semicolon => ";"
  | leftParen => "("
  | rightParen => ")"
  | leftBrace => "\x7b"
  | rightBrace => "\x7d"

/-- The sign that a single character spells. -/
def ofChar? : Char → Option Symbol
  | '=' => some assign
  | '+' => some plus
  | '-' => some minus
  | '!' => some bang
  | '*' => some star
  | '/' => some slash
  | '<' => some less
  | '>' => some greater
  | ',' => some comma
  | ';' => some semicolon
  | '(' => some leftParen
  | ')' => some rightParen
  | '\x7b' => some leftBrace
  | '\x7d' => some rightBrace
  | _ => none

/-- The sign that `=` directly behind a sign makes of it. -/
def withEquals? : Symbol → Option Symbol
  | assign => some equal
  | bang => some notEqual
  | _ => none

theorem text_of_ofChar? {c : Char} {s : Symbol} (h : ofChar? c = some s) :
    s.text = String.singleton c := by
  unfold ofChar? at h
  split at h <;> cases h <;> rfl

theorem text_of_withEquals? {s t : Symbol} (h : s.withEquals? = some t) :
    t.text = s.text ++ "=" := by
  cases s <;> cases h <;> rfl

end Symbol

/-- A word that the language keeps for itself. -/
inductive Keyword where
  | fnWord | letWord | trueWord | falseWord | ifWord | elseWord | returnWord
deriving DecidableEq, Repr

namespace Keyword

/-- The spelling of a keyword. -/
def text : Keyword → String
  | fnWord => "fn"
  | letWord => "let"
  | trueWord => "true"
  | falseWord => "false"
  | ifWord => "if"
  | elseWord => "else"
  | returnWord => "return"

/-- What a message calls a keyword. -/
def kind : Keyword → String
  | fnWord => "FUNCTION"
  | letWord => "LET"
  | trueWord => "TRUE"
  | falseWord => "FALSE"
  | ifWord => "IF"
  | elseWord => "ELSE"
  | returnWord => "RETURN"

/-- All keywords. -/
def all : List Keyword :=
  [fnWord, letWord, trueWord, falseWord, ifWord, elseWord, returnWord]

/-- The keyword with a given spelling. -/
def ofText? (word : String) : Option Keyword :=
  all.find? fun k => k.text == word

@[simp] theorem ofText?_text (k : Keyword) : ofText? k.text = some k := by
  cases k <;> decide

theorem text_of_ofText? {word : String} {k : Keyword} (h : ofText? word = some k) :
    k.text = word := by
  simpa using List.find?_some h

end Keyword

/-- A token: a piece of a program text, or the end of it. -/
inductive Token where
  /-- A character that begins no other token. -/
  | illegal (c : Char)
  /-- The end of the text. -/
  | endOfInput
  /-- A name: a word that is no keyword. -/
  | ident (name : String)
  /-- A number, as its digits. -/
  | int (digits : String)
  /-- A sign. -/
  | symbol (sign : Symbol)
  /-- A keyword. -/
  | keyword (word : Keyword)
deriving DecidableEq, Repr

namespace Token

instance : Inhabited Token := ⟨endOfInput⟩

instance : Coe Symbol Token := ⟨symbol⟩

instance : Coe Keyword Token := ⟨keyword⟩

/-- What stands in the program text for a token. -/
def literal : Token → String
  | illegal c => String.singleton c
  | endOfInput => ""
  | ident name => name
  | int digits => digits
  | symbol s => s.text
  | keyword k => k.text

/-- What a message calls a token. -/
def kind : Token → String
  | illegal _ => "ILLEGAL"
  | endOfInput => "EOF"
  | ident _ => "IDENT"
  | int _ => "INT"
  | symbol s => s.text
  | keyword k => k.kind

/-- The token of a word: the keyword with that spelling, else the name. -/
def ofWord (word : String) : Token :=
  match Keyword.ofText? word with
  | some k => keyword k
  | none => ident word

@[simp] theorem literal_ofWord (word : String) : (ofWord word).literal = word := by
  unfold ofWord
  split
  · next h => exact Keyword.text_of_ofText? h
  · rfl

@[simp] theorem ofWord_text (k : Keyword) : ofWord k.text = keyword k := by
  simp [ofWord]

theorem ofWord_ne_endOfInput (word : String) : ofWord word ≠ endOfInput := by
  unfold ofWord
  split <;> simp

end Token

end TreeWalk
