/-!
Whole numbers of 64 bits with sign, and the exact results that fit into them.
-/

namespace LiveNotes.Number

/-- The least of these numbers. -/
def minInteger : Int := -9223372036854775808

/-- The greatest of these numbers. -/
def maxInteger : Int := 9223372036854775807

/-- The 64-bit number equal to an integer, if there is one. -/
def fit? (n : Int) : Option Int64 :=
  if minInteger ≤ n ∧ n ≤ maxInteger then some (Int64.ofInt n) else none

/-- The 64-bit number nearest to an integer. -/
def clamp (n : Int) : Int64 := .ofInt (max minInteger (min n maxInteger))

theorem toInt_ofInt_of_fits {n : Int} (h : minInteger ≤ n ∧ n ≤ maxInteger) :
    (Int64.ofInt n).toInt = n := by
  rw [Int64.toInt_ofInt]
  have : Int64.size = 18446744073709551616 := rfl
  unfold minInteger maxInteger at h
  rw [this, Int.bmod_eq_of_le] <;> omega

/-- A result fits exactly when its value is the number. -/
theorem fit?_eq_some {n : Int} {m : Int64} : fit? n = some m ↔ m.toInt = n := by
  unfold fit?
  constructor
  · intro h
    split at h
    · rename_i hn
      rw [← Option.some.inj h, toInt_ofInt_of_fits hn]
    · simp at h
  · intro h
    subst h
    have h1 := Int64.le_toInt m
    have h2 := Int64.toInt_lt m
    rw [if_pos ⟨h1, Int.le_of_lt_add_one h2⟩, Int64.ofInt_toInt]

/-- The decimal text of a 64-bit number. -/
def integerText (n : Int64) : String := n.toInt.repr

end LiveNotes.Number
