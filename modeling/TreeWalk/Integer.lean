/-
# Integers of 64 bits

The integers of programs have 64 bits and a sign.  A number that is computed or read exactly is
such an integer if it lies between the two ends of their range, and none otherwise.
-/
namespace TreeWalk
namespace Integer

/-- The least integer. -/
def least : Int := -9223372036854775808

/-- The greatest integer. -/
def greatest : Int := 9223372036854775807

/-- The integer that equals an exact number. -/
def ofInt? (exact : Int) : Option Int64 :=
  if least ≤ exact ∧ exact ≤ greatest then some (Int64.ofInt exact) else none

theorem least_le_toInt (n : Int64) : least ≤ n.toInt :=
  Int64.le_toInt n

theorem toInt_le_greatest (n : Int64) : n.toInt ≤ greatest :=
  Int.le_of_lt_add_one (Int64.toInt_lt n)

theorem ofInt?_eq_some_iff {exact : Int} {n : Int64} :
    ofInt? exact = some n ↔ n.toInt = exact := by
  unfold ofInt?
  constructor
  · intro h
    split at h
    · next hr =>
      cases h
      exact Int64.toInt_ofInt_of_le hr.1 (Int.lt_add_one_of_le hr.2)
    · simp at h
  · rintro rfl
    rw [if_pos ⟨least_le_toInt n, toInt_le_greatest n⟩, Int64.ofInt_toInt]

theorem ofInt?_eq_none_iff {exact : Int} :
    ofInt? exact = none ↔ exact < least ∨ greatest < exact := by
  unfold ofInt?
  split <;> simp <;> omega

end Integer
end TreeWalk
