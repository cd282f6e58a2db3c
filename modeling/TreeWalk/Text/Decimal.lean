/-
# Decimal numbers

Numbers are written in base ten, without leading zeros and with `-` in front of a negative one.
They are read from a row of digits, in which leading zeros count for nothing.  Reading what was
written gives the number back (`value_digits`).
-/
namespace TreeWalk
namespace Decimal

/-- The digits of a natural number. -/
def digits (n : Nat) : List Char :=
  Nat.toDigits 10 n

/-- The number that a row of digits stands for. -/
def value (row : List Char) : Nat :=
  Nat.ofDigitChars 10 row 0

@[simp] theorem value_digits (n : Nat) : value (digits n) = n :=
  Nat.ofDigitChars_toDigits (by decide) (by decide)

theorem digits_ne_nil (n : Nat) : digits n ≠ [] :=
  Nat.toDigits_ne_nil

theorem isDigit_of_mem_digits {n : Nat} {c : Char} (h : c ∈ digits n) : c.isDigit :=
  Nat.isDigit_of_mem_toDigits (by decide) (by decide) h

/-- The text of an integer. -/
def text : Int → String
  | .ofNat n => String.ofList (digits n)
  | .negSucc n => "-" ++ String.ofList (digits (n + 1))

@[simp] theorem text_natCast (n : Nat) : text n = String.ofList (digits n) := rfl

end Decimal
end TreeWalk
