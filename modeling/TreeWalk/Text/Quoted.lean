/-
# Text in quotes

A text is shown between double quotes, on one line and without characters that would not be seen.
A quote and a backslash get a backslash; tabulator, line feed, carriage return and NUL are written
with a letter; any other character that does not print by itself is written by its code point.
-/
import TreeWalk.Text.Printable

namespace TreeWalk
namespace Quoted

/-- The code point of a character, in braces and in base sixteen. -/
def codePoint (c : Char) : List Char :=
  "\\u\x7b".toList ++ Nat.toDigits 16 c.toNat ++ ['\x7d']

/-- How a character stands between quotes. -/
def encodeChar (c : Char) : List Char :=
  match c with
  | '\x00' => ['\\', '0']
  | '\t' => ['\\', 't']
  | '\n' => ['\\', 'n']
  | '\r' => ['\\', 'r']
  | '"' => ['\\', '"']
  | '\\' => ['\\', '\\']
  | c => if isPrintable c then [c] else codePoint c

end Quoted

/-- A text in quotes. -/
def quoted (text : String) : String :=
  String.ofList ('"' :: text.toList.flatMap Quoted.encodeChar ++ ['"'])

end TreeWalk
