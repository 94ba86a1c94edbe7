import LiveNotes.Number.Shortest
import LiveNotes.Proofs.Number.Nearest
import LiveNotes.Proofs.Number.TextLength

/-!
The fewest digits that read back as a double do read back: the search for them ends with a hit, since the grid
is finer than the distance to the next double when eighteen digits are tried.

* `Numeral.value`: the number that a numeral is;
* `Target.Holds`: the numbers that read back, as rational numbers;
* `onGrid?_holds`, `onGrid?_ne_none`: hits on a grid;
* `magnitude_le`: a number has at least as many digits before the point as are searched for;
* `nearest_digits`: the digits of a double are nearest to it.
-/

namespace LiveNotes.Number

/-- The number that a numeral is. -/
def Numeral.value (n : Numeral) : ℚ := n.digits * 10 ^ n.exponent

/-- Zeros at the end are taken off without a change of the number. -/
theorem value_stripZeros (room : Nat) (n : Numeral) : (stripZeros room n).value = n.value := by
  induction room generalizing n with
  | zero => rfl
  | succ room ih =>
    rw [stripZeros]
    split
    · next h =>
      have hdigits : (n.digits : ℚ) = (n.digits / 10 : Nat) * 10 := by
        exact_mod_cast (Nat.div_mul_cancel (Nat.dvd_of_mod_eq_zero h.2)).symm
      rw [ih, Numeral.value, Numeral.value, hdigits, zpow_add₀ (by norm_num), zpow_one]
      ring
    · rfl

namespace Shortest

/-! ### Targets -/

/-- The numbers that read back as the target. -/
structure Target.Holds (t : Target) (q : ℚ) : Prop where
  low_le : t.low / t.den ≤ q
  le_high : q ≤ t.high / t.den
  inside : t.closed = false → t.low / t.den < q ∧ q < t.high / t.den

section Targets

variable {t : Target} {s e : Int} {k : Nat}

theorem scale_eq (t : Target) (s : Int) : t.scale s =
    ⟨t.low * 10 ^ s.toNat, t.value * 10 ^ s.toNat, t.high * 10 ^ s.toNat, t.den * 10 ^ (-s).toNat, t.closed⟩ := by
  unfold Target.scale
  split
  · next hs =>
    rw [Int.toNat_of_nonpos (by omega : -s ≤ 0), Nat.pow_zero, Nat.mul_one]
    rfl
  · next hs =>
    rw [Int.toNat_of_nonpos (by omega : s ≤ 0), Nat.pow_zero, Nat.mul_one, Nat.mul_one, Nat.mul_one]
    rfl

/-- A quotient that both parts of which are scaled. -/
theorem scaled_ratio (a b : Nat) (s : Int) :
    ((a * 10 ^ s.toNat : Nat) : ℚ) / (b * 10 ^ (-s).toNat : Nat) = a / b * 10 ^ s := by
  obtain ⟨k, rfl | rfl⟩ := s.eq_nat_or_neg
  · simp [zpow_natCast, mul_div_right_comm]
  · simp [zpow_neg, zpow_natCast, div_eq_mul_inv, mul_assoc, mul_comm]

theorem scale_den_pos (h : 0 < t.den) (s : Int) : 0 < (t.scale s).den := by
  rw [scale_eq]
  exact Nat.mul_pos h (Nat.pow_pos (by decide))

theorem scale_value (t : Target) (s : Int) : ((t.scale s).value : ℚ) / (t.scale s).den = t.value / t.den * 10 ^ s := by
  rw [scale_eq]
  exact scaled_ratio t.value t.den s

/-- A multiple of a power of ten compared with a quotient, in whole numbers. -/
theorem scaled_compare {a b : Nat} (hb : 0 < b) (k : Nat) (e : Int) :
    (a * 10 ^ (-e).toNat ≤ k * (b * 10 ^ (-(-e)).toNat) ↔ (a / b : ℚ) ≤ k * 10 ^ e) ∧
      (k * (b * 10 ^ (-(-e)).toNat) ≤ a * 10 ^ (-e).toNat ↔ (k * 10 ^ e : ℚ) ≤ a / b) := by
  have hp : (0 : ℚ) < 10 ^ e := by positivity
  have hden : (0 : ℚ) < (b * 10 ^ (-(-e)).toNat : Nat) := by
    exact_mod_cast Nat.mul_pos hb (Nat.pow_pos (by decide))
  have hratio := scaled_ratio a b (-e)
  rw [zpow_neg, ← div_eq_mul_inv] at hratio
  constructor
  · rw [← div_le_iff₀ hp, ← hratio, div_le_iff₀ hden]
    exact_mod_cast Iff.rfl
  · rw [← le_div_iff₀ hp, ← hratio, le_div_iff₀ hden]
    exact_mod_cast Iff.rfl

/-- A multiple of a power of ten reads back as the target if the target scaled by it contains the factor. -/
theorem contains_scale_iff (h : 0 < t.den) :
    (t.scale (-e)).contains (k * (t.scale (-e)).den) = true ↔ t.Holds (k * 10 ^ e) := by
  obtain ⟨hlow, hlow'⟩ := scaled_compare (a := t.low) h k e
  obtain ⟨hhigh', hhigh⟩ := scaled_compare (a := t.high) h k e
  rw [scale_eq]
  unfold Target.contains
  dsimp only
  cases hc : t.closed with
  | true =>
    rw [if_pos rfl, Bool.and_eq_true, decide_eq_true_eq, decide_eq_true_eq, hlow, hhigh]
    refine ⟨fun h => ⟨h.1, h.2, fun hc' => ?_⟩, fun h => ⟨h.low_le, h.le_high⟩⟩
    exact absurd (hc.symm.trans hc') (by decide)
  | false =>
    rw [if_neg (by decide), Bool.and_eq_true, decide_eq_true_eq, decide_eq_true_eq, ← Nat.not_le, ← Nat.not_le, hlow',
      hhigh', not_le, not_le]
    exact ⟨fun h => ⟨h.1.le, h.2.le, fun _ => h⟩, fun h => h.inside hc⟩

/-! ### Hits on a grid -/

/-- A hit reads back. -/
theorem onGrid?_holds {tie : Tie} {n : Numeral} (h : 0 < t.den) (hn : onGrid? tie t e = some n) :
    t.Holds n.value := by
  unfold onGrid? at hn
  dsimp only at hn
  generalize (t.scale (-e)).value / (t.scale (-e)).den = down at hn
  generalize (if (t.scale (-e)).value % (t.scale (-e)).den = 0 then down else down + 1) = up at hn
  split at hn
  · cases hn
  · next hdown _ =>
    cases hn
    exact (contains_scale_iff h).1 hdown
  · next _ hup =>
    cases hn
    exact (contains_scale_iff h).1 hup
  · next hdown hup =>
    split at hn
    · cases hn
      exact (contains_scale_iff h).1 hdown
    · cases hn
      exact (contains_scale_iff h).1 hup

/-- A quotient rounded up. -/
theorem roundedUp_bounds (a : Nat) {b up : Nat} (hb : 0 < b) (hup : (if a % b = 0 then a / b else a / b + 1) = up) :
    (a / b : ℚ) ≤ up ∧ (up : ℚ) < a / b + 1 := by
  have hb' : (0 : ℚ) < b := by exact_mod_cast hb
  have hmod := Nat.div_add_mod a b
  have hlt := Nat.mod_lt a hb
  rw [Nat.mul_comm] at hmod
  have hbounds : a ≤ up * b ∧ up * b < a + b := by
    rw [← hup]
    split
    · omega
    · rw [Nat.succ_mul]
      omega
  constructor
  · rw [div_le_iff₀ hb']
    exact_mod_cast hbounds.1
  · rw [div_add_one hb'.ne', lt_div_iff₀ hb']
    exact_mod_cast hbounds.2

/-- There is a hit if the grid is finer than the numbers above the target that read back. -/
theorem onGrid?_ne_none {tie : Tie} (h : 0 < t.den) (hlow : t.low < t.value)
    (hstep : (t.value / t.den + 10 ^ e : ℚ) ≤ t.high / t.den) : onGrid? tie t e ≠ none := by
  have hden : (0 : ℚ) < t.den := by exact_mod_cast h
  have hp : (0 : ℚ) < 10 ^ e := by positivity
  have hvalue := scale_value t (-e)
  rw [zpow_neg, ← div_eq_mul_inv] at hvalue
  unfold onGrid?
  dsimp only
  generalize hup : (if (t.scale (-e)).value % (t.scale (-e)).den = 0 then (t.scale (-e)).value / (t.scale (-e)).den
    else (t.scale (-e)).value / (t.scale (-e)).den + 1) = up
  obtain ⟨hle, hlt⟩ := roundedUp_bounds _ (scale_den_pos h (-e)) hup
  rw [hvalue] at hle hlt
  have hge : (t.value / t.den : ℚ) ≤ up * 10 ^ e := (div_le_iff₀ hp).1 hle
  have hnear : (up * 10 ^ e : ℚ) < t.value / t.den + 10 ^ e := by
    calc (up * 10 ^ e : ℚ) < (t.value / t.den / 10 ^ e + 1) * 10 ^ e := by gcongr
      _ = t.value / t.den + 10 ^ e := by rw [add_mul, div_mul_cancel₀ _ hp.ne', one_mul]
  have hlow' : (t.low / t.den : ℚ) < t.value / t.den := by
    gcongr
  have hholds : t.Holds (up * 10 ^ e) :=
    ⟨hlow'.le.trans hge, hnear.le.trans hstep, fun _ => ⟨hlow'.trans_le hge, hnear.trans_le hstep⟩⟩
  rw [(contains_scale_iff h).2 hholds]
  generalize (t.scale (-e)).contains ((t.scale (-e)).value / (t.scale (-e)).den * (t.scale (-e)).den) = hit
  cases hit with
  | false => nofun
  | true =>
    dsimp only
    split <;> nofun

/-- A search reads back if there is a hit for the last number of digits that it tries. -/
theorem search_holds {tie : Tie} (h : 0 < t.den) {size : Int} {count room : Nat}
    (hlast : onGrid? tie t (size - (count + room)) ≠ none) : t.Holds (search tie t size count room).value := by
  induction room generalizing count with
  | zero =>
    rw [Int.natCast_zero, Int.add_zero] at hlast
    obtain ⟨n, hn⟩ := Option.ne_none_iff_exists'.1 hlast
    rw [search, hn]
    exact onGrid?_holds h hn
  | succ room ih =>
    rw [search]
    split
    · next n hn => exact onGrid?_holds h hn
    · refine ih ?_
      rw [show size - ((count + 1 : Nat) + (room : Int)) = size - (count + (room + 1 : Nat)) by push_cast; ring]
      exact hlast

/-! ### How many digits stand before the point -/

theorem scale_value_lt_iff (h : 0 < t.den) :
    (t.scale (-e)).value < (t.scale (-e)).den ↔ (t.value / t.den : ℚ) < 10 ^ e := by
  have hden : (0 : ℚ) < (t.scale (-e)).den := by exact_mod_cast scale_den_pos h _
  rw [← Nat.cast_lt (α := ℚ), ← div_lt_one hden, scale_value, zpow_neg, ← div_eq_mul_inv,
    div_lt_one (by positivity)]

/-- With `10 ^ p` hardly above `2 ^ q`, powers of ten are compared with powers of two by their exponents. -/
theorem ten_pow_le {p q g k : Nat} (hpq : 10 ^ p ≤ 2 ^ (q + 1)) (hg : q * g ≤ p * k) (hk : k ≤ q) (hq : 0 < q) :
    10 ^ g ≤ 2 ^ (k + 1) := by
  refine (Nat.pow_le_pow_iff_left hq.ne').1 ?_
  calc (10 ^ g) ^ q = 10 ^ (q * g) := by rw [← Nat.pow_mul, Nat.mul_comm]
    _ ≤ 10 ^ (p * k) := Nat.pow_le_pow_right (by decide) hg
    _ = (10 ^ p) ^ k := Nat.pow_mul ..
    _ ≤ (2 ^ (q + 1)) ^ k := Nat.pow_le_pow_left hpq k
    _ = 2 ^ ((q + 1) * k) := (Nat.pow_mul ..).symm
    _ ≤ 2 ^ ((k + 1) * q) := Nat.pow_le_pow_right (by decide) (by nlinarith only [hk])
    _ = (2 ^ (k + 1)) ^ q := Nat.pow_mul ..

theorem two_pow_le {p q g k : Nat} (hpq : 2 ^ q ≤ 10 ^ p) (hg : p * k ≤ q * g) (hq : 0 < q) : 2 ^ k ≤ 10 ^ g := by
  refine (Nat.pow_le_pow_iff_left hq.ne').1 ?_
  calc (2 ^ k) ^ q = (2 ^ q) ^ k := by rw [← Nat.pow_mul, ← Nat.pow_mul, Nat.mul_comm]
    _ ≤ (10 ^ p) ^ k := Nat.pow_le_pow_left hpq k
    _ = 10 ^ (p * k) := (Nat.pow_mul ..).symm
    _ ≤ 10 ^ (q * g) := Nat.pow_le_pow_right (by decide) hg
    _ = (10 ^ g) ^ q := by rw [← Nat.pow_mul, Nat.mul_comm]

/-- The guess at the number of digits before the point is too large by one at most. -/
theorem guess_le (size : Int) (h : size ≤ 100000) : (10 : ℚ) ^ (size * 30103 / 100000 - 1) ≤ 2 ^ size := by
  obtain ⟨k, rfl | rfl⟩ := size.eq_nat_or_neg
  · have hpow : 10 ^ (k * 30103 / 100000) ≤ 2 ^ (k + 1) :=
      ten_pow_le (p := 30103) (q := 100000) (by decide +kernel) (by omega) (by omega) (by decide)
    have hpow' : (10 : ℚ) ^ (k * 30103 / 100000 : Nat) ≤ 2 ^ k * 2 := by exact_mod_cast hpow
    rw [show (k : Int) * 30103 / 100000 = (k * 30103 / 100000 : Nat) by push_cast; rfl, zpow_sub_one₀ (by norm_num),
      zpow_natCast, zpow_natCast, ← div_eq_mul_inv, div_le_iff₀ (by norm_num)]
    have hk : (0 : ℚ) < 2 ^ k := by positivity
    linarith
  · have hpow : 2 ^ k ≤ 10 ^ (-(-(k : Int) * 30103 / 100000)).toNat :=
      two_pow_le (p := 30103) (q := 100000) (by decide +kernel) (by omega) (by decide)
    obtain ⟨g, hg⟩ := Int.eq_ofNat_of_zero_le (by omega : 0 ≤ -(-(k : Int) * 30103 / 100000))
    rw [hg] at hpow
    have hpow' : (2 : ℚ) ^ k ≤ 10 ^ g := by exact_mod_cast hpow
    rw [show -(k : Int) * 30103 / 100000 = -g by omega, zpow_sub_one₀ (by norm_num), zpow_neg, zpow_neg, zpow_natCast,
      zpow_natCast]
    calc ((10 : ℚ) ^ g)⁻¹ * 10⁻¹ ≤ (10 ^ g)⁻¹ := mul_le_of_le_one_right (by positivity) (by norm_num)
      _ ≤ (2 ^ k)⁻¹ := inv_anti₀ (by positivity) hpow'

/-- A number has at least as many digits before the point as are searched for. -/
theorem magnitude_le (hfits : t.Fits) (hpos : 0 < t.value) : (10 : ℚ) ^ (magnitude t - 1) ≤ t.value / t.den := by
  have hsize := (Double.ratio_bounds hpos.ne' hfits.den_pos.ne').1.le
  have hlog : t.value.log2 < 1024 := log2_lt (by decide) hfits.value
  have hguess := guess_le ((t.value.log2 : Int) - t.den.log2 - 1) (by omega)
  unfold magnitude
  dsimp only
  generalize ((t.value.log2 : Int) - t.den.log2 - 1) * 30103 / 100000 = guess at *
  simp only [decide_eq_true_eq, scale_value_lt_iff hfits.den_pos]
  split
  · exact hguess.trans hsize
  · next h0 =>
    split
    · rw [Int.add_sub_cancel]
      exact le_of_not_gt h0
    · next h1 =>
      split
      · rw [show guess + 2 - 1 = guess + 1 by ring]
        exact le_of_not_gt h1
      · next h2 =>
        rw [show guess + 3 - 1 = guess + 2 by ring]
        exact le_of_not_gt h2

end Targets

/-! ### The digits of a double -/

section Doubles

variable {m : Nat} {e : Int}

/-- The target of a double: the middles to its neighbours, in quarters of its power of two. -/
theorem target_ratios (hm : 0 < m) (e : Int) : 0 < (target m e).den ∧
    ((target m e).low : ℚ) / (target m e).den = lowerMiddle m e ∧
    ((target m e).value : ℚ) / (target m e).den = m * 2 ^ e ∧
    ((target m e).high : ℚ) / (target m e).den = upperMiddle m e := by
  have hquarter : (2 : ℚ) ^ (e - 2) = 2 ^ e / 4 := by
    rw [zpow_sub₀ (by norm_num)]
    norm_num
  have hgap := Double.shifted_ratio 1 1 (e - 2)
  have hden := Double.shifted_den_pos 1 Nat.one_pos (e - 2)
  unfold target
  rw [Double.shifted_eq] at hgap hden
  rw [Double.shifted_eq, Double.shifted_eq]
  simp only [Nat.one_mul] at hgap hden ⊢
  generalize 2 ^ (e - 2).toNat = gap at *
  generalize 2 ^ (-(e - 2)).toNat = den at *
  have hden' : (0 : ℚ) < den := by exact_mod_cast hden
  have hgap' : (gap : ℚ) = 2 ^ e / 4 * den := by
    simp only [Nat.cast_one, div_one, one_mul, hquarter] at hgap
    rw [← hgap, div_mul_cancel₀ _ hden'.ne']
  refine ⟨hden, ?_, ?_, ?_⟩
  · have hbelow : (if m = twoTo 52 ∧ -1074 < e then 1 else 2) * gap ≤ 4 * m * gap := by
      refine Nat.mul_le_mul_right _ ?_
      split <;> omega
    rw [Nat.cast_sub hbelow, lowerMiddle, div_eq_iff hden'.ne']
    push_cast
    rw [hgap']
    split <;> ring
  · rw [div_eq_iff hden'.ne']
    push_cast
    rw [hgap']
    ring
  · rw [upperMiddle, div_eq_iff hden'.ne']
    push_cast
    rw [hgap']
    ring

/-- What reads back is nearest. -/
theorem Target.Holds.nearest (hm : 0 < m) {q : ℚ} (h : (target m e).Holds q) : Nearest q m e := by
  obtain ⟨-, hlow, -, hhigh⟩ := target_ratios hm e
  have hclosed : (target m e).closed = (m % 2 == 0) := rfl
  obtain ⟨hle, hle', hinside⟩ := h
  rw [hlow] at hle hinside
  rw [hhigh] at hle' hinside
  refine ⟨hle, hle', fun hodd => hinside ?_⟩
  rw [hclosed, hodd]
  rfl

theorem low_lt_value (hm : 0 < m) (e : Int) : (target m e).low < (target m e).value := by
  obtain ⟨hden, hlow, hvalue, -⟩ := target_ratios hm e
  have hden' : (0 : ℚ) < (target m e).den := by exact_mod_cast hden
  have hlt : ((target m e).low : ℚ) / (target m e).den < (target m e).value / (target m e).den := by
    rw [hlow, hvalue, lowerMiddle]
    refine mul_lt_mul_of_pos_right ?_ (by positivity)
    split <;> linarith
  exact_mod_cast (div_lt_div_iff_of_pos_right hden').1 hlt

/-- Eighteen digits are enough: the next double is farther away than a unit of the last of them. -/
theorem eighteen_digits {size : Int} (hlt : m < 2 ^ 53) (h : (10 : ℚ) ^ (size - 1) ≤ m * 2 ^ e) :
    (10 : ℚ) ^ (size - (1 + 17)) ≤ 1 / 2 * 2 ^ e := by
  have h53 : (m : ℚ) < 2 ^ 53 := by exact_mod_cast hlt
  have hp : (0 : ℚ) < 2 ^ e := by positivity
  have hunit : (10 : ℚ) ^ (size - (1 + 17)) = 10 ^ (size - 1) / 10 ^ 17 := by
    rw [show size - (1 + 17) = size - 1 - 17 by ring, zpow_sub₀ (by norm_num)]
    norm_num
  rw [hunit, div_le_iff₀ (by norm_num)]
  calc (10 : ℚ) ^ (size - 1) ≤ m * 2 ^ e := h
    _ ≤ 2 ^ 53 * 2 ^ e := by gcongr
    _ ≤ 1 / 2 * 2 ^ e * 10 ^ 17 := by nlinarith only [hp]

/-- The digits of a double are nearest to it. -/
theorem nearest_digits (tie : Tie) (h : FiniteParts m e) (hm : 0 < m) : Nearest (digits tie m e).value m e := by
  obtain ⟨hlt, hle, hle', -⟩ := h
  obtain ⟨hden, -, hvalue, hhigh⟩ := target_ratios hm e
  have hlow := low_lt_value hm e
  have hmagnitude := magnitude_le (fits_target hlt hle hle') (Nat.zero_lt_of_lt hlow)
  rw [hvalue] at hmagnitude
  have hhit : onGrid? tie (target m e) (magnitude (target m e) - ((1 : Nat) + (17 : Nat))) ≠ none := by
    refine onGrid?_ne_none hden hlow ?_
    rw [hvalue, hhigh, upperMiddle, add_mul]
    exact add_le_add_right (eighteen_digits hlt hmagnitude) _
  unfold digits
  rw [value_stripZeros]
  exact (search_holds hden hhit).nearest hm

end Doubles

end Shortest

end LiveNotes.Number
