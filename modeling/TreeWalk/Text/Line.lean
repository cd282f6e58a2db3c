/-
# Lines

Input comes as bytes.  It is cut into lines, each with the line feed that ends it, and a line is
a text if its bytes are UTF-8.  Output is written as lines of text, ended in the same way.
-/
namespace TreeWalk
namespace Line

/-- The byte that ends a line. -/
def feed : UInt8 := 10

/-- Put a byte in front of some lines. -/
def consByte (b : UInt8) : List (List UInt8) → List (List UInt8)
  | lines@(line :: rest) => if b = feed then [b] :: lines else (b :: line) :: rest
  | [] => [[b]]

/-- The lines of some bytes.  The last one may lack its line feed; none is empty. -/
def split : List UInt8 → List (List UInt8)
  | [] => []
  | b :: bs => consByte b (split bs)

theorem flatten_consByte (b : UInt8) (lines : List (List UInt8)) :
    (consByte b lines).flatten = b :: lines.flatten := by
  cases lines with
  | nil => rfl
  | cons line rest => by_cases h : b = feed <;> simp [consByte, h]

/-- The lines are all there is. -/
theorem flatten_split (bytes : List UInt8) : (split bytes).flatten = bytes := by
  induction bytes with
  | nil => rfl
  | cons b bs ih => rw [split, flatten_consByte, ih]

/-- The text that some bytes encode, if they are UTF-8. -/
def decode? (bytes : List UInt8) : Option String :=
  String.fromUTF8? ⟨bytes.toArray⟩

/-- Lines of text, each ended by a line feed. -/
def ended (lines : List String) : String :=
  String.join (lines.map (· ++ "\n"))

end Line
end TreeWalk
