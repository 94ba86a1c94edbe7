/-!
Quotients of natural numbers rounded to the nearest integer.

* `roundEven`: a half goes to the even neighbour;
* `roundUp`: a half goes up.
-/

namespace LiveNotes.Number

/-- `num / den` rounded to the nearest integer, a half to the even one. -/
def roundEven (num den : Nat) : Nat :=
  let q := num / den
  let r := num % den
  if 2 * r < den then q
  else if den < 2 * r then q + 1
  else if q % 2 = 0 then q else q + 1

/-- `num / den` rounded to the nearest integer, a half up. -/
def roundUp (num den : Nat) : Nat :=
  if 2 * (num % den) < den then num / den else num / den + 1

/-- Rounding moves a quotient by at most one half. -/
theorem roundEven_near {num den : Nat} (h : 0 < den) :
    2 * (roundEven num den * den) ≤ 2 * num + den ∧ 2 * num ≤ 2 * (roundEven num den * den) + den := by
  have hr := Nat.mod_lt num h
  have hq : num / den * den + num % den = num := by
    rw [Nat.mul_comm]; exact Nat.div_add_mod num den
  have hs : (num / den + 1) * den = num / den * den + den := Nat.succ_mul _ _
  simp only [roundEven]
  split
  · omega
  · split
    · omega
    · split <;> omega

/-- A whole quotient is not moved. -/
theorem roundEven_mul (q : Nat) {den : Nat} (h : 0 < den) : roundEven (q * den) den = q := by
  simp [roundEven, Nat.mul_mod_left, Nat.mul_div_cancel q h, h]

end LiveNotes.Number
