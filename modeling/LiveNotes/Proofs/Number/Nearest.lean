import LiveNotes.Proofs.Number.Finite

/-!
The double nearest to a quotient. The numbers that become one double are those between the middles to its two
neighbours, with the middles if its mantissa is even.

* `Nearest`: the numbers that become a double;
* `exists_exponent`: the power of two that a quotient is measured in;
* `ofRatio_of_nearest`: a quotient becomes the double that it is nearest to.
-/

namespace LiveNotes.Number

/-! ### Rounding -/

/-- A quotient between two halves is rounded to the number between them, and a half to an even one. -/
theorem roundEven_eq {num den m : Nat} (hd : 0 < den) (hlow : 2 * (m * den) ≤ 2 * num + den)
    (hhigh : 2 * num ≤ 2 * (m * den) + den)
    (hodd : m % 2 = 1 → 2 * (m * den) < 2 * num + den ∧ 2 * num < 2 * (m * den) + den) :
    roundEven num den = m := by
  have hr := Nat.mod_lt num hd
  have hnum : num / den * den + num % den = num := by
    rw [Nat.mul_comm]
    exact Nat.div_add_mod num den
  have hle : num / den ≤ m := by
    by_contra hlt
    have := Nat.mul_le_mul_right den (Nat.lt_of_not_le hlt)
    rw [Nat.succ_mul] at this
    omega
  have hge : m ≤ num / den + 1 := by
    by_contra hlt
    have := Nat.mul_le_mul_right den (Nat.lt_of_not_le hlt)
    rw [Nat.succ_mul, Nat.succ_mul] at this
    omega
  have hcases : m = num / den ∨ m = num / den + 1 := by omega
  unfold roundEven
  dsimp only
  generalize num / den = q at *
  generalize num % den = r at *
  rcases hcases with rfl | rfl
  · by_cases hhalf : 2 * r < den
    · rw [if_pos hhalf]
    · rw [if_neg hhalf, if_neg (by omega), if_pos (by omega)]
  · have hmul : (q + 1) * den = q * den + den := Nat.succ_mul q den
    rw [hmul] at hlow hhigh hodd
    by_cases hhalf : den < 2 * r
    · rw [if_neg (by omega), if_pos hhalf]
    · rw [if_neg (by omega), if_neg hhalf, if_neg (by omega)]

/-- The same of a rational number that is written as a quotient. -/
theorem roundEven_eq_of_near {num den m : Nat} {q : ℚ} (hd : 0 < den) (hq : (num : ℚ) / den = q)
    (hlow : (m : ℚ) - 1 / 2 ≤ q) (hhigh : q ≤ m + 1 / 2)
    (hodd : m % 2 = 1 → (m : ℚ) - 1 / 2 < q ∧ q < m + 1 / 2) : roundEven num den = m := by
  have hd' : (0 : ℚ) < den := by exact_mod_cast hd
  have hnum : (num : ℚ) = q * den := by
    rw [← hq, div_mul_cancel₀ _ hd'.ne']
  refine roundEven_eq hd ?_ ?_ fun hm => ⟨?_, ?_⟩
  · have : (2 * (m * den) : ℚ) ≤ 2 * num + den := by
      rw [hnum]
      nlinarith only [mul_le_mul_of_nonneg_right hlow hd'.le]
    exact_mod_cast this
  · have : (2 * num : ℚ) ≤ 2 * (m * den) + den := by
      rw [hnum]
      nlinarith only [mul_le_mul_of_nonneg_right hhigh hd'.le]
    exact_mod_cast this
  · have : (2 * (m * den) : ℚ) < 2 * num + den := by
      rw [hnum]
      nlinarith only [mul_lt_mul_of_pos_right (hodd hm).1 hd']
    exact_mod_cast this
  · have : (2 * num : ℚ) < 2 * (m * den) + den := by
      rw [hnum]
      nlinarith only [mul_lt_mul_of_pos_right (hodd hm).2 hd']
    exact_mod_cast this

/-! ### The numbers that become a double -/

/-- The middle between a double and the one below it, which is nearer where the exponent changes. -/
def lowerMiddle (m : Nat) (e : Int) : ℚ := (m - if m = 2 ^ 52 ∧ -1074 < e then 1 / 4 else 1 / 2) * 2 ^ e

/-- The middle between a double and the one above it. -/
def upperMiddle (m : Nat) (e : Int) : ℚ := (m + 1 / 2) * 2 ^ e

/-- The numbers nearest to `m * 2 ^ e` among the doubles; the middles belong to an even mantissa. -/
structure Nearest (q : ℚ) (m : Nat) (e : Int) : Prop where
  lower_le : lowerMiddle m e ≤ q
  le_upper : q ≤ upperMiddle m e
  inside : m % 2 = 1 → lowerMiddle m e < q ∧ q < upperMiddle m e

theorem lowerMiddle_pos {m : Nat} (hm : 0 < m) (e : Int) : 0 < lowerMiddle m e := by
  have h1 : (1 : ℚ) ≤ m := by exact_mod_cast hm
  refine mul_pos ?_ (by positivity)
  split <;> linarith

/-- The numbers nearest to a double, measured in the power of two of the double. -/
theorem Nearest.scaled {q : ℚ} {m : Nat} {e : Int} (h : Nearest q m e) :
    (m : ℚ) - (if m = 2 ^ 52 ∧ -1074 < e then 1 / 4 else 1 / 2) ≤ q * 2 ^ (-e) ∧
    q * 2 ^ (-e) ≤ m + 1 / 2 ∧ (m % 2 = 1 →
      (m : ℚ) - (if m = 2 ^ 52 ∧ -1074 < e then 1 / 4 else 1 / 2) < q * 2 ^ (-e) ∧ q * 2 ^ (-e) < m + 1 / 2) := by
  have hp : (0 : ℚ) < 2 ^ e := by positivity
  have hq : q * 2 ^ (-e) = q / 2 ^ e := by rw [zpow_neg, div_eq_mul_inv]
  rw [hq]
  refine ⟨(le_div_iff₀ hp).2 h.lower_le, (div_le_iff₀ hp).2 h.le_upper, fun hodd => ?_⟩
  exact ⟨(lt_div_iff₀ hp).2 (h.inside hodd).1, (div_lt_iff₀ hp).2 (h.inside hodd).2⟩

namespace Double

variable {num den m : Nat} {e : Int}

theorem shifted_eq (num den : Nat) (s : Int) : shifted num den s = (num * 2 ^ s.toNat, den * 2 ^ (-s).toNat) := by
  unfold shifted
  split
  · next hs =>
    rw [Int.toNat_of_nonpos (by omega : -s ≤ 0), Nat.pow_zero, Nat.mul_one]
    rfl
  · next hs =>
    rw [Int.toNat_of_nonpos (by omega : s ≤ 0), Nat.pow_zero, Nat.mul_one]
    rfl

theorem shifted_den_pos (num : Nat) (hd : 0 < den) (s : Int) : 0 < (shifted num den s).2 := by
  rw [shifted_eq]
  exact Nat.mul_pos hd (Nat.two_pow_pos _)

/-- A shift multiplies a quotient by a power of two. -/
theorem shifted_ratio (num den : Nat) (s : Int) :
    ((shifted num den s).1 : ℚ) / (shifted num den s).2 = num / den * 2 ^ s := by
  rw [shifted_eq]
  obtain ⟨k, rfl | rfl⟩ := s.eq_nat_or_neg
  · simp [zpow_natCast, mul_div_right_comm]
  · simp [zpow_neg, zpow_natCast, div_eq_mul_inv, mul_assoc, mul_comm]

theorem zpow_log2_le {n : Nat} (h : n ≠ 0) : (2 : ℚ) ^ (n.log2 : Int) ≤ n := by
  rw [zpow_natCast]
  exact_mod_cast Nat.log2_self_le h

theorem lt_zpow_log2 (n : Nat) : (n : ℚ) < 2 ^ ((n.log2 : Int) + 1) := by
  have : (n : ℚ) < 2 ^ (n.log2 + 1) := by exact_mod_cast Nat.lt_log2_self (n := n)
  exact_mod_cast this

/-- The sizes of numerator and denominator tell a quotient up to a factor of two. -/
theorem ratio_bounds (hn : num ≠ 0) (hd : den ≠ 0) :
    (2 : ℚ) ^ ((num.log2 : Int) - den.log2 - 1) < num / den ∧
      (num / den : ℚ) < 2 ^ ((num.log2 : Int) - den.log2 + 1) := by
  have hd' : (0 : ℚ) < den := by exact_mod_cast Nat.pos_of_ne_zero hd
  have hlow := zpow_log2_le hn
  have hden := lt_zpow_log2 den
  have hnum := lt_zpow_log2 num
  have hden' := zpow_log2_le hd
  constructor
  · rw [lt_div_iff₀ hd']
    calc (2 : ℚ) ^ ((num.log2 : Int) - den.log2 - 1) * den
        < 2 ^ ((num.log2 : Int) - den.log2 - 1) * 2 ^ ((den.log2 : Int) + 1) := by gcongr
      _ = 2 ^ (num.log2 : Int) := by
        rw [← zpow_add₀ (by norm_num)]
        congr 1
        ring
      _ ≤ num := hlow
  · rw [div_lt_iff₀ hd']
    calc (num : ℚ) < 2 ^ ((num.log2 : Int) + 1) := hnum
      _ = 2 ^ ((num.log2 : Int) - den.log2 + 1) * 2 ^ (den.log2 : Int) := by
        rw [← zpow_add₀ (by norm_num)]
        congr 1
        ring
      _ ≤ 2 ^ ((num.log2 : Int) - den.log2 + 1) * den := by gcongr

/-- A quotient is measured in a power of two such that it takes 53 bits, or in the least one. -/
theorem exists_exponent (hn : num ≠ 0) (hd : den ≠ 0) : ∃ e : Int, -1074 ≤ e ∧
    (num / den : ℚ) < 2 ^ (e + 53) ∧ (e = -1074 ∨ (2 : ℚ) ^ (e + 52) ≤ num / den) ∧
    ∀ n d, shifted num den (-e) = (n, d) → (e + 1074).toNat * 2 ^ 52 + roundEven n d < 2047 * 2 ^ 52 →
      ofRatio num den = Float.ofBits (UInt64.ofNat ((e + 1074).toNat * 2 ^ 52 + roundEven n d)) := by
  obtain ⟨hlow, hhigh⟩ := ratio_bounds hn hd
  have h52 : twoTo 52 = 2 ^ 52 := rfl
  have h53 : twoTo 53 = 2 ^ 53 := rfl
  generalize hleast : max (-1074) ((num.log2 : Int) - den.log2 - 53) = least
  have hdiv := shifted_ratio num den (-least)
  have hpos := shifted_den_pos num (Nat.pos_of_ne_zero hd) (-least)
  have hlarge : 2 ^ 53 ≤ (shifted num den (-least)).1 / (shifted num den (-least)).2 ↔
      (2 : ℚ) ^ (least + 53) ≤ num / den := by
    rw [Nat.le_div_iff_mul_le hpos, ← Nat.cast_le (α := ℚ), Nat.cast_mul,
      ← le_div_iff₀ (by exact_mod_cast hpos), hdiv, zpow_neg, ← div_eq_mul_inv, le_div_iff₀ (by positivity),
      zpow_add₀ (by norm_num), mul_comm]
    norm_num
  by_cases h : 2 ^ 53 ≤ (shifted num den (-least)).1 / (shifted num den (-least)).2
  · refine ⟨least + 1, by omega, ?_, .inr ?_, ?_⟩
    · refine hhigh.trans_le (zpow_le_zpow_right₀ (by norm_num) ?_)
      omega
    · exact (hlarge.1 h).trans_eq' (by congr 1; ring)
    · intro n d hs hlt
      unfold ofRatio
      rw [if_neg hn]
      dsimp only
      rw [h52, h53, hleast, if_pos h, hs, if_neg (Nat.not_le_of_lt hlt)]
  · refine ⟨least, by omega, lt_of_not_ge fun hge => h (hlarge.2 hge), ?_, ?_⟩
    · rcases (by omega : least = -1074 ∨ least = num.log2 - den.log2 - 53) with h1074 | hsize
      · exact .inl h1074
      · refine .inr (hlow.le.trans_eq' ?_)
        rw [hsize]
        congr 1
        ring
    · intro n d hs hlt
      unfold ofRatio
      rw [if_neg hn]
      dsimp only
      rw [h52, h53, hleast, if_neg h, hs, if_neg (Nat.not_le_of_lt hlt)]

theorem lt_of_zpow_le {q : ℚ} {i j : Int} (hle : (2 : ℚ) ^ i ≤ q) (hlt : q < 2 ^ j) : i < j :=
  (zpow_lt_zpow_iff_right₀ (by norm_num)).1 (hle.trans_lt hlt)

/-- A number nearest to a double takes no more than 53 bits in its power of two. -/
theorem lt_of_nearest {q : ℚ} (hlt : m < 2 ^ 53) (h : Nearest q m e) : q < 2 ^ (e + 53) := by
  have hm : (m : ℚ) + 1 ≤ 2 ^ 53 := by exact_mod_cast hlt
  calc q ≤ upperMiddle m e := h.le_upper
    _ < 2 ^ 53 * 2 ^ e := mul_lt_mul_of_pos_right (by linarith) (by positivity)
    _ = 2 ^ (e + 53) := by
      rw [zpow_add₀ (by norm_num), mul_comm]
      norm_num

/-- Measured in the power of two of the double, it is rounded to the mantissa. -/
theorem roundEven_of_nearest {q : ℚ} {n d : Nat} (h : Nearest q m e) (hd : 0 < d)
    (hratio : (n : ℚ) / d = q * 2 ^ (-e)) : roundEven n d = m := by
  obtain ⟨hlower, hupper, hinside⟩ := h.scaled
  have hgap : (m : ℚ) - 1 / 2 ≤ m - if m = 2 ^ 52 ∧ -1074 < e then 1 / 4 else 1 / 2 := by
    split <;> linarith
  exact roundEven_eq_of_near hd hratio (hgap.trans hlower) hupper fun hodd =>
    ⟨hgap.trans_lt (hinside hodd).1, (hinside hodd).2⟩

/-- Only below the mantissa `2 ^ 52` does it take fewer than 53 bits; in the smaller power of two it is then rounded
up to `2 ^ 53`. -/
theorem nearest_below {q : ℚ} (h : Nearest q m e) (hfull : 2 ^ 52 ≤ m) (hle : -1074 < e) (hsmall : q < 2 ^ (e + 52)) :
    m = 2 ^ 52 ∧ (2 : ℚ) ^ (e + 51) ≤ q ∧
      ∀ n d : Nat, 0 < d → (n : ℚ) / d = q * 2 ^ (-(e - 1)) → roundEven n d = 2 ^ 53 := by
  obtain ⟨hlower, -, -⟩ := h.scaled
  have hp : (0 : ℚ) < 2 ^ e := by positivity
  have hx : q * 2 ^ (-e) < 2 ^ 52 := by
    rw [zpow_neg, ← div_eq_mul_inv, div_lt_iff₀ hp, mul_comm, ← zpow_natCast, ← zpow_add₀ (by norm_num)]
    exact hsmall
  obtain rfl : m = 2 ^ 52 := by
    by_contra hne
    rw [if_neg fun h => hne h.1] at hlower
    have : (2 : ℚ) ^ 52 + 1 ≤ m := by
      exact_mod_cast Nat.lt_of_le_of_ne hfull (Ne.symm hne)
    linarith
  rw [if_pos ⟨rfl, hle⟩] at hlower
  push_cast at hlower
  refine ⟨rfl, ?_, ?_⟩
  · calc (2 : ℚ) ^ (e + 51) = 2 ^ 51 * 2 ^ e := by
          rw [zpow_add₀ (by norm_num), mul_comm]
          norm_num
      _ ≤ q * 2 ^ (-e) * 2 ^ e := mul_le_mul_of_nonneg_right (by linarith) hp.le
      _ = q := by rw [mul_assoc, ← zpow_add₀ (by norm_num), neg_add_cancel, zpow_zero, mul_one]
  · intro n d hd hratio
    have htwice : q * 2 ^ (-(e - 1)) = 2 * (q * 2 ^ (-e)) := by
      rw [neg_sub, sub_eq_add_neg, zpow_add₀ (by norm_num), zpow_one, mul_left_comm]
    rw [htwice] at hratio
    refine roundEven_eq_of_near hd hratio ?_ ?_ nofun
    · push_cast
      linarith
    · push_cast
      linarith

/-- The bits of the double are those that rounding gives, whichever power of two a number nearest to the double is
measured in. -/
theorem bits_of_nearest {q : ℚ} {n d : Nat} {f : Int} (hparts : FiniteParts m e) (h : Nearest q m e) (hd : 0 < d)
    (hratio : (n : ℚ) / d = q * 2 ^ (-f)) (hf : -1074 ≤ f) (hhigh : q < 2 ^ (f + 53))
    (hlow : f = -1074 ∨ (2 : ℚ) ^ (f + 52) ≤ q) :
    (f + 1074).toNat * 2 ^ 52 + roundEven n d = (e + 1074).toNat * 2 ^ 52 + m := by
  obtain ⟨hlt, hle, -, hfull⟩ := hparts
  have hfe : f ≤ e := by
    rcases hlow with rfl | hlow
    · exact hle
    · have := lt_of_zpow_le hlow (lt_of_nearest hlt h)
      omega
  by_cases hcase : e = -1074 ∨ (2 : ℚ) ^ (e + 52) ≤ q
  · obtain rfl : f = e := by
      rcases hcase with rfl | hcase
      · omega
      · have := lt_of_zpow_le hcase hhigh
        omega
    rw [roundEven_of_nearest h hd hratio]
  · obtain ⟨hleast, hsmall⟩ := not_or.1 hcase
    obtain ⟨rfl, hlarge, hround⟩ :=
      nearest_below h (hfull.resolve_right hleast) (lt_of_le_of_ne hle (Ne.symm hleast)) (lt_of_not_ge hsmall)
    obtain rfl : f = e - 1 := by
      have := lt_of_zpow_le hlarge hhigh
      rcases hlow with rfl | hlow
      · omega
      · have := lt_of_zpow_le hlow (lt_of_not_ge hsmall)
        omega
    rw [hround n d hd hratio]
    omega

/-- A quotient becomes the double that it is nearest to. -/
theorem ofRatio_of_nearest (hparts : FiniteParts m e) (hm : 0 < m) (hd : den ≠ 0) (h : Nearest (num / den) m e) :
    ofRatio num den = ofParts false m e := by
  have hpos : (0 : ℚ) < num / den := (lowerMiddle_pos hm e).trans_le h.lower_le
  have hn : num ≠ 0 := by
    rintro rfl
    simp at hpos
  obtain ⟨f, hf, hhigh, hlow, heq⟩ := exists_exponent hn hd
  have hratio := shifted_ratio num den (-f)
  have hden := shifted_den_pos num (Nat.pos_of_ne_zero hd) (-f)
  rcases hs : shifted num den (-f) with ⟨n, d⟩
  rw [hs] at hratio hden
  dsimp only at hratio hden
  have hbits := bits_of_nearest hparts h hden hratio hf hhigh hlow
  obtain ⟨hlt, hle, hle', -⟩ := hparts
  rw [heq n d hs (by omega), hbits, ofParts, partsBits, Bool.toNat_false, Nat.zero_mul, Nat.zero_add]

/-! ### Decimal numbers -/

/-- A number has no more digits than are guessed from its size in bits. -/
theorem lt_ten_pow_size (n : Nat) : n < 10 ^ (n.log2 / 3 + 1) := by
  calc n < 2 ^ (n.log2 + 1) := Nat.lt_log2_self
    _ ≤ 2 ^ (3 * (n.log2 / 3 + 1)) := Nat.pow_le_pow_right (by decide) (by omega)
    _ = 8 ^ (n.log2 / 3 + 1) := Nat.pow_mul ..
    _ ≤ 10 ^ (n.log2 / 3 + 1) := Nat.pow_le_pow_left (by decide) _

theorem two_zpow_lt {a b : Nat} (h : 2 ^ a < 10 ^ b) :
    (2 : ℚ) ^ (a : Int) < 10 ^ (b : Int) ∧ (10 : ℚ) ^ (-(b : Int)) < 2 ^ (-(a : Int)) := by
  have hpow : (2 : ℚ) ^ (a : Int) < 10 ^ (b : Int) := by
    rw [zpow_natCast, zpow_natCast]
    exact_mod_cast h
  refine ⟨hpow, ?_⟩
  rw [zpow_neg, zpow_neg]
  exact inv_strictAnti₀ (by positivity) hpow

/-- The numbers that become finite doubles apart from zero. -/
theorem range_of_nearest {q : ℚ} (hparts : FiniteParts m e) (hm : 0 < m) (h : Nearest q m e) :
    (10 : ℚ) ^ (-324 : Int) < q ∧ q < 10 ^ (309 : Int) := by
  obtain ⟨hlt, hle, hle', -⟩ := hparts
  have h1 : (1 : ℚ) ≤ m := by exact_mod_cast hm
  have h53 : (m : ℚ) + 1 ≤ 2 ^ 53 := by exact_mod_cast hlt
  constructor
  · calc (10 : ℚ) ^ (-324 : Int) < 2 ^ (-1075 : Int) :=
          (two_zpow_lt (a := 1075) (b := 324) (by decide +kernel)).2
      _ = 1 / 2 * 2 ^ (-1074 : Int) := by
        rw [show (-1075 : Int) = -1074 - 1 by rfl, zpow_sub_one₀ (by norm_num), mul_comm, one_div]
      _ ≤ 1 / 2 * 2 ^ e := by
        gcongr
        norm_num
      _ ≤ lowerMiddle m e := by
        refine mul_le_mul_of_nonneg_right ?_ (by positivity)
        split <;> linarith
      _ ≤ q := h.lower_le
  · calc q ≤ upperMiddle m e := h.le_upper
      _ ≤ 2 ^ 53 * 2 ^ e := by
        refine mul_le_mul_of_nonneg_right ?_ (by positivity)
        linarith
      _ ≤ 2 ^ 53 * 2 ^ (971 : Int) := by
        gcongr
        norm_num
      _ = 2 ^ (1024 : Int) := by
        rw [show (2 : ℚ) ^ 53 = 2 ^ (53 : Int) from (zpow_ofNat 2 53).symm, ← zpow_add₀ (by norm_num)]
        rfl
      _ < 10 ^ (309 : Int) := (two_zpow_lt (a := 1024) (b := 309) (by decide +kernel)).1

/-- A decimal number becomes the double that it is nearest to. -/
theorem ofDecimal_of_nearest {digits : Nat} {exponent : Int} (hparts : FiniteParts m e) (hm : 0 < m)
    (h : Nearest (digits * 10 ^ exponent) m e) : ofDecimal digits exponent = ofParts false m e := by
  obtain ⟨hlow, hhigh⟩ := range_of_nearest hparts hm h
  have hp : (0 : ℚ) < 10 ^ exponent := by positivity
  have hdigits : digits ≠ 0 := by
    rintro rfl
    rw [Nat.cast_zero, zero_mul] at hlow
    exact absurd hlow (not_lt.2 (by positivity))
  have h1 : (1 : ℚ) ≤ digits := by exact_mod_cast Nat.pos_of_ne_zero hdigits
  have hlarge : ¬ 400 < exponent := by
    have : (10 : ℚ) ^ exponent < 10 ^ (309 : Int) := (le_mul_of_one_le_left hp.le h1).trans_lt hhigh
    have := (zpow_lt_zpow_iff_right₀ (by norm_num)).1 this
    omega
  have hsmall : ¬ exponent + ((digits.log2 / 3 + 1 : Nat) : Int) < -400 := by
    have hsize : (digits : ℚ) < 10 ^ (digits.log2 / 3 + 1) := by exact_mod_cast lt_ten_pow_size digits
    have : (10 : ℚ) ^ (-324 : Int) < 10 ^ (((digits.log2 / 3 + 1 : Nat) : Int) + exponent) := by
      rw [zpow_add₀ (by norm_num), zpow_natCast]
      exact hlow.trans (mul_lt_mul_of_pos_right hsize hp)
    have := (zpow_lt_zpow_iff_right₀ (by norm_num)).1 this
    omega
  unfold ofDecimal
  dsimp only
  push_cast at hsmall
  rw [if_neg hdigits, if_neg hlarge, if_neg hsmall]
  split
  · next hexponent =>
    obtain ⟨k, rfl⟩ := Int.eq_ofNat_of_zero_le hexponent
    refine ofRatio_of_nearest hparts hm one_ne_zero ?_
    have hvalue : ((digits * tenTo (k : Int).toNat : Nat) : ℚ) / (1 : Nat) = digits * 10 ^ (k : Int) := by
      rw [Nat.cast_one, div_one, zpow_natCast]
      exact_mod_cast rfl
    rwa [hvalue]
  · next hexponent =>
    obtain ⟨k, hk⟩ := Int.eq_ofNat_of_zero_le (by omega : 0 ≤ -exponent)
    obtain rfl : exponent = -k := by omega
    refine ofRatio_of_nearest hparts hm (Nat.pow_pos (by decide)).ne' ?_
    have hvalue : (digits : ℚ) / (tenTo (-(-(k : Int))).toNat : Nat) = digits * 10 ^ (-(k : Int)) := by
      rw [neg_neg, Int.toNat_natCast, zpow_neg, zpow_natCast, ← div_eq_mul_inv]
      exact_mod_cast rfl
    rwa [hvalue]

end Double

end LiveNotes.Number
