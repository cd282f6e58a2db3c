/-
# From text to tokens

A text is cut into tokens from the left, each as long as it can be.  Blanks in front of a token
are skipped; a word is a run of letters, a number a run of digits, and `=` behind `=` or `!`
belongs to the sign before it.

The place reached in a text is the text that is still to be read, so reading one token is a
function from a text to a token and the rest (`Token.read`), and what is read from a place does
not depend on what stands before it.  A NUL character is read as an end of input, although
reading may go on behind it; the other texts have one end, which can be read for ever.  All
tokens of a text, with those ends in their places, form its *stream* (`Token.stream`).

Every token but the end of the whole text takes a character (`length_read_lt`), and this is what
makes the functions below recursive on the length of the text.
-/
import TreeWalk.Token

namespace TreeWalk
namespace Token

/-! ### Classes of characters -/

/-- The characters that may stand between two tokens. -/
def isBlank (c : Char) : Bool :=
  c = ' ' || c = '\t' || c = '\r' || c = '\n'

/-- The characters of a word: the letters of the Latin alphabet and the underscore. -/
def isLetter (c : Char) : Bool :=
  c.isAlpha || c = '_'

/-- The digits of a number. -/
def isDigit (c : Char) : Bool :=
  c.isDigit

/-- The character that ends the input although more may follow. -/
def nul : Char := '\x00'

/-! ### One token -/

/-- The token that begins with the character `c`, which is no blank, and the text behind it. -/
def startingWith (c : Char) (rest : List Char) : Token × List Char :=
  if isLetter c then
    (ofWord (String.ofList (c :: rest.takeWhile isLetter)), rest.dropWhile isLetter)
  else if isDigit c then
    (int (String.ofList (c :: rest.takeWhile isDigit)), rest.dropWhile isDigit)
  else
    match Symbol.ofChar? c with
    | some s =>
      match s.withEquals?, rest with
      | some t, '=' :: rest => (t, rest)
      | _, _ => (s, rest)
    | none => (if c = nul then endOfInput else illegal c, rest)

/-- The next token of a text and the text behind it. -/
def read (text : List Char) : Token × List Char :=
  match text.dropWhile isBlank with
  | [] => (endOfInput, [])
  | c :: rest => startingWith c rest

theorem length_startingWith_le (c : Char) (rest : List Char) :
    (startingWith c rest).2.length ≤ rest.length := by
  unfold startingWith
  split
  · exact (List.dropWhile_suffix _).length_le
  split
  · exact (List.dropWhile_suffix _).length_le
  split
  · split <;> simp
  · simp

theorem length_startingWith_lt {text : List Char} {c : Char} {rest : List Char}
    (h : text.dropWhile isBlank = c :: rest) :
    (startingWith c rest).2.length < text.length := by
  have hle := (List.dropWhile_suffix (l := text) isBlank).length_le
  rw [h, List.length_cons] at hle
  have := length_startingWith_le c rest
  omega

/-- Reading takes at least one character, unless only blanks are left. -/
theorem length_read_lt {text : List Char} (h : text.dropWhile isBlank ≠ []) :
    (read text).2.length < text.length := by
  unfold read
  split
  · contradiction
  · next heq => exact length_startingWith_lt heq

/-! ### All tokens -/

/-- The tokens of a text, the ends that NUL characters make among them; the end of the text
itself is left out. -/
def stream (text : List Char) : List Token :=
  match _h : text.dropWhile isBlank with
  | [] => []
  | c :: rest => (startingWith c rest).1 :: stream (startingWith c rest).2
termination_by text.length
decreasing_by exact length_startingWith_lt _h

/-- The tokens of a text up to its first end, and the text behind that end. -/
def upToEnd (text : List Char) : List Token × List Char :=
  match _h : text.dropWhile isBlank with
  | [] => ([], [])
  | c :: rest =>
    if (startingWith c rest).1 = endOfInput then
      ([], (startingWith c rest).2)
    else
      let (tokens, behind) := upToEnd (startingWith c rest).2
      ((startingWith c rest).1 :: tokens, behind)
termination_by text.length
decreasing_by exact length_startingWith_lt _h

/-- The tokens of a source text, up to its first end. -/
def ofSource (source : String) : List Token :=
  (upToEnd source.toList).1

/-- The next token, if it is not an end of input; an end is passed over all the same. -/
def read? (text : List Char) : Option Token × List Char :=
  match read text with
  | (endOfInput, rest) => (none, rest)
  | (t, rest) => (some t, rest)

end Token
end TreeWalk
