import LiveNotes.Number.Integer
import LiveNotes.Number.Text
import LiveNotes.Proofs.Text.Weight

/-!
How long the text of a number can be.

* `weight_integerText`: twenty characters for a whole number of 64 bits;
* `weight_plain`, `weight_fixed`: the texts of a double, positional and with up to a hundred places
  behind the point, have at most `longestText` characters.
-/

namespace LiveNotes.Number

open Text (weight)

/-! ### Digits -/

theorem tenTo_pos (k : Nat) : 0 < tenTo k := Nat.pow_pos (by decide)

theorem twoTo_pos (k : Nat) : 0 < twoTo k := Nat.pow_pos (by decide)

theorem tenTo_le {j k : Nat} (h : j ≤ k) : tenTo j ≤ tenTo k := Nat.pow_le_pow_right (by decide) h

theorem twoTo_le {j k : Nat} (h : j ≤ k) : twoTo j ≤ twoTo k := Nat.pow_le_pow_right (by decide) h

theorem twoTo_lt {j k : Nat} (h : j < k) : twoTo j < twoTo k := Nat.pow_lt_pow_right (by decide) h

theorem log2_lt {n k : Nat} (hk : 0 < k) (h : n < twoTo k) : n.log2 < k := by
  by_cases h0 : n = 0
  · rw [h0]
    exact hk
  · exact (Nat.log2_lt h0).2 h

/-- Decimal digits weigh one each. -/
theorem weight_decimalDigits (n : Nat) : weight (decimalDigits n) = (decimalDigits n).length := by
  refine Text.weight_of_ascii fun c hc => ?_
  have := Nat.isDigit_of_mem_toDigits (by decide) (by decide) hc
  simp only [Char.isDigit, Bool.and_eq_true, decide_eq_true_eq] at this
  have := UInt32.le_iff_toNat_le.1 this.2
  exact Nat.lt_of_le_of_lt this (by decide)

theorem length_decimalDigits_le {n k : Nat} (hk : 0 < k) (h : n < tenTo k) :
    (decimalDigits n).length ≤ k :=
  (Nat.length_toDigits_le_iff (by decide) hk).2 h

@[simp] theorem weight_zeros (n : Nat) : weight (zeros n) = n := by
  rw [Text.weight_of_ascii, zeros, List.length_replicate]
  intro c hc
  rw [List.eq_of_mem_replicate hc]
  decide

theorem weight_take_add_drop (n : Nat) (s : List Char) :
    weight (s.take n) + weight (s.drop n) = weight s := by
  rw [← Text.weight_append, List.take_append_drop]

/-- The text of a natural number below `10 ^ k`. -/
theorem weight_natText {n k : Nat} (hk : 0 < k) (h : n < tenTo k) : weight n.repr.toList ≤ k := by
  rw [Nat.toList_repr]
  exact Nat.le_trans (Nat.le_of_eq (weight_decimalDigits n)) (length_decimalDigits_le hk h)

theorem weight_integerText (n : Int64) : weight (integerText n).toList ≤ 20 := by
  have low := Int64.le_toInt n
  have high := Int64.toInt_lt n
  have room : (9223372036854775808 : Nat) < tenTo 19 := by decide
  unfold integerText
  generalize n.toInt = i at *
  cases i with
  | ofNat m =>
    have : m < tenTo 19 := by simp only [Int.ofNat_eq_natCast] at high; omega
    exact Nat.le_succ_of_le (weight_natText (by decide) this)
  | negSucc m =>
    have : m.succ < tenTo 19 := by omega
    have := weight_natText (by decide) this
    change weight ("-" ++ m.succ.repr).toList ≤ 20
    rw [String.toList_append, Text.weight_append]
    change 1 + _ ≤ 20
    omega

/-! ### Positional texts -/

/-- What keeps the positional text of a numeral short: the number is below `10 ^ 652`, and no digit
stands more than 343 places behind the point. -/
structure Numeral.Short (n : Numeral) : Prop where
  high : n.digits * tenTo n.exponent.toNat < tenTo 652
  low : -343 ≤ n.exponent
  zero : n.digits = 0 → n.exponent ≤ 309

/-- The characters of the longest text of a double. -/
def longestText : Nat := 655

theorem length_add_le {d e k : Nat} (hd : 0 < d) (h : d * tenTo e < tenTo k) :
    (decimalDigits d).length + e ≤ k := by
  have he : e < k := by
    refine (Nat.pow_lt_pow_iff_right (a := 10) (by decide)).1 ?_
    exact Nat.lt_of_le_of_lt (Nat.le_mul_of_pos_left _ hd) h
  have hs : tenTo k = tenTo (k - e) * tenTo e := by
    change 10 ^ k = 10 ^ (k - e) * 10 ^ e
    rw [← Nat.pow_add, Nat.sub_add_cancel (Nat.le_of_lt he)]
  rw [hs] at h
  have := length_decimalDigits_le (by omega) (Nat.lt_of_mul_lt_mul_right h)
  omega

theorem Numeral.Short.length_add_le {n : Numeral} (h : n.Short) :
    (decimalDigits n.digits).length + n.exponent.toNat ≤ 652 := by
  by_cases hd : n.digits = 0
  · have := h.zero hd
    rw [hd]
    change 1 + _ ≤ 652
    omega
  · exact Number.length_add_le (Nat.pos_of_ne_zero hd) h.high

theorem weight_positional {n : Numeral} (h : n.Short) : weight (positional n 0) ≤ 654 := by
  have hl := h.length_add_le
  have hlow := h.low
  have hw := weight_decimalDigits n.digits
  have point (s t : List Char) : weight (s ++ '.' :: t) = weight s + 1 + weight t := by
    rw [Text.weight_append, Text.weight_cons, Nat.add_assoc]
    rfl
  have hsplit := weight_take_add_drop ((decimalDigits n.digits).length + n.exponent).toNat
    (decimalDigits n.digits)
  -- the part behind the point is empty or makes a point necessary
  have assemble {front back : List Char} (hb : weight front + weight back ≤ 653) :
      weight (if (back ++ zeros (0 - back.length)).isEmpty then front
        else front ++ '.' :: (back ++ zeros (0 - back.length))) ≤ 654 := by
    rw [Nat.zero_sub, zeros, List.replicate_zero, List.append_nil]
    split
    · omega
    · rw [point]
      omega
  unfold positional
  split
  · refine assemble ?_
    simp only [Text.weight_append, weight_zeros, Text.weight_nil]
    omega
  · dsimp only
    split
    · refine assemble ?_
      dsimp only
      omega
    · refine assemble ?_
      simp only [Text.weight_append, weight_zeros, hw]
      change 1 + _ ≤ 653
      omega

theorem weight_signed {s : List Char} {n : Nat} (negative : Bool) (h : weight s ≤ n) :
    weight (signed negative s).toList ≤ n + 1 := by
  unfold signed
  rw [String.toList_ofList]
  split
  · rw [Text.weight_cons]
    change 1 + _ ≤ _
    omega
  · omega

/-! ### The digits of a double -/

/-- Zeros taken off the end leave a numeral short. -/
theorem short_stripZeros {room : Nat} {n : Numeral} (h : n.Short) : (stripZeros room n).Short := by
  induction room generalizing n with
  | zero => exact h
  | succ room ih =>
    rw [stripZeros]
    split
    · next hc =>
      refine ih ⟨?_, ?_, ?_⟩
      · refine Nat.lt_of_le_of_lt ?_ h.high
        change n.digits / 10 * tenTo (n.exponent + 1).toNat ≤ n.digits * tenTo n.exponent.toNat
        by_cases he : 0 ≤ n.exponent
        · rw [Int.toNat_add he (by decide)]
          change n.digits / 10 * 10 ^ (n.exponent.toNat + 1) ≤ n.digits * 10 ^ n.exponent.toNat
          rw [Nat.pow_succ, Nat.mul_comm (10 ^ _), ← Nat.mul_assoc]
          exact Nat.mul_le_mul_right _ (Nat.div_mul_le_self _ _)
        · rw [Int.toNat_of_nonpos (by omega), Int.toNat_of_nonpos (by omega)]
          exact Nat.mul_le_mul_right _ (Nat.div_le_self _ _)
      · have := h.low
        change -343 ≤ n.exponent + 1
        omega
      · intro hz
        dsimp only at hz
        omega
    · exact h

/-- What is known of the target of a double: it is below `2 ^ 1024`, its denominator at most
`2 ^ 1076`. -/
structure Shortest.Target.Fits (t : Shortest.Target) : Prop where
  value : t.value < twoTo 1024
  den_pos : 0 < t.den
  den : t.den ≤ twoTo 1076

/-- A hit on a grid: its digits are at most one more than the quotient. -/
theorem onGrid?_some {tie : Tie} {t : Shortest.Target} {e : Int} {n : Numeral}
    (h : Shortest.onGrid? tie t e = some n) :
    n.exponent = e ∧ n.digits ≤ (t.scale (-e)).value / (t.scale (-e)).den + 1 := by
  unfold Shortest.onGrid? at h
  dsimp only at h
  generalize (t.scale (-e)).value / (t.scale (-e)).den = down at h ⊢
  generalize hup : (if (t.scale (-e)).value % (t.scale (-e)).den = 0 then down else down + 1) = up at h
  have hle : up ≤ down + 1 := by
    rw [← hup]
    split <;> omega
  split at h
  · cases h
  · cases h; exact ⟨rfl, Nat.le_succ _⟩
  · cases h; exact ⟨rfl, hle⟩
  · split at h
    · cases h; exact ⟨rfl, Nat.le_succ _⟩
    · cases h; exact ⟨rfl, hle⟩

theorem short_onGrid {tie : Tie} {t : Shortest.Target} (ht : t.Fits) {e : Int} {n : Numeral}
    (hlow : -343 ≤ e) (hhigh : e ≤ 309) (h : Shortest.onGrid? tie t e = some n) : n.Short := by
  obtain ⟨rfl, hd⟩ := onGrid?_some h
  refine ⟨?_, hlow, fun _ => hhigh⟩
  have room : twoTo 1024 * tenTo 343 + tenTo 309 < tenTo 652 := by decide +kernel
  refine Nat.lt_of_le_of_lt (Nat.mul_le_mul_right _ hd) (Nat.lt_of_le_of_lt ?_ room)
  rw [Nat.succ_mul]
  unfold Shortest.Target.scale
  -- the powers are far too large to be computed
  obtain ⟨p, hp⟩ : ∃ p, p = tenTo 343 := ⟨_, rfl⟩
  obtain ⟨q, hq⟩ : ∃ q, q = tenTo 309 := ⟨_, rfl⟩
  have hv := ht.value
  generalize twoTo 1024 = v at *
  rw [← hp, ← hq]
  by_cases he : n.exponent ≤ 0
  · rw [if_pos (by omega), Int.toNat_of_nonpos he]
    change t.value * tenTo (-n.exponent).toNat / t.den * 1 + 1 ≤ v * p + q
    have hle : tenTo (-n.exponent).toNat ≤ p := hp ▸ tenTo_le (by omega)
    have := Nat.mul_le_mul (Nat.le_of_lt hv) hle
    have := Nat.div_le_self (t.value * tenTo (-n.exponent).toNat) t.den
    have : 0 < q := hq ▸ tenTo_pos 309
    omega
  · rw [if_neg (by omega), Int.neg_neg]
    change t.value / (t.den * tenTo n.exponent.toNat) * tenTo n.exponent.toNat +
      tenTo n.exponent.toNat ≤ v * p + q
    have hle : tenTo n.exponent.toNat ≤ q := hq ▸ tenTo_le (by omega)
    have hd := Nat.div_mul_le_self (t.value / t.den) (tenTo n.exponent.toNat)
    rw [Nat.div_div_eq_div_mul] at hd
    have := Nat.div_le_self t.value t.den
    have : v ≤ v * p := Nat.le_mul_of_pos_right _ (hp ▸ tenTo_pos 343)
    omega

theorem short_zero : Numeral.Short ⟨0, 0⟩ :=
  ⟨by rw [Nat.zero_mul]; exact tenTo_pos _, by decide, fun _ => by decide⟩

theorem short_search {tie : Tie} {t : Shortest.Target} (ht : t.Fits) {size : Int} {count room : Nat}
    (hlow : -343 ≤ size - (count + room)) (hhigh : size - count ≤ 309) :
    (Shortest.search tie t size count room).Short := by
  induction room generalizing count with
  | zero =>
    rw [Shortest.search]
    cases h : Shortest.onGrid? tie t (size - count) with
    | none => exact short_zero
    | some n => exact short_onGrid ht (by omega) hhigh h
  | succ room ih =>
    rw [Shortest.search]
    split
    · next n h => exact short_onGrid ht (by omega) hhigh h
    · exact ih (by omega) (by omega)

/-- A double lies between `10 ^ -325` and `10 ^ 310`. -/
theorem magnitude_range {t : Shortest.Target} (ht : t.Fits) :
    -325 ≤ Shortest.magnitude t ∧ Shortest.magnitude t ≤ 310 := by
  have hv : t.value.log2 < 1024 := log2_lt (by decide) ht.value
  have hd : t.den.log2 < 1077 :=
    log2_lt (by decide) (Nat.lt_of_le_of_lt ht.den (twoTo_lt (by decide)))
  unfold Shortest.magnitude
  dsimp only
  split
  · omega
  · split
    · omega
    · split <;> omega

theorem shifted_le {num den : Nat} {shift : Int} {k : Nat} (h : shift ≤ k) :
    (Double.shifted num den shift).1 ≤ num * twoTo k := by
  unfold Double.shifted
  split
  · exact Nat.mul_le_mul_left _ (twoTo_le (by omega))
  · exact Nat.le_mul_of_pos_right _ (twoTo_pos k)

theorem fits_target {mantissa : Nat} {exponent : Int} (hm : mantissa < twoTo 53)
    (hlow : -1074 ≤ exponent) (hhigh : exponent ≤ 971) :
    (Shortest.target mantissa exponent).Fits := by
  have hv := @shifted_le (4 * mantissa) 1 (exponent - 2) 969 (by omega)
  have room : 4 * twoTo 53 * twoTo 969 = twoTo 1024 := by decide +kernel
  have hden : (Double.shifted (4 * mantissa) 1 (exponent - 2)).2 ≤ twoTo 1076 ∧
      0 < (Double.shifted (4 * mantissa) 1 (exponent - 2)).2 := by
    unfold Double.shifted
    split
    · exact ⟨twoTo_pos 1076, Nat.one_pos⟩
    · dsimp only
      rw [Nat.one_mul]
      exact ⟨twoTo_le (by omega), twoTo_pos _⟩
  refine ⟨?_, hden.2, hden.1⟩
  change (Double.shifted (4 * mantissa) 1 (exponent - 2)).1 < _
  rw [← room]
  refine Nat.lt_of_le_of_lt hv (Nat.mul_lt_mul_of_pos_right ?_ (twoTo_pos 969))
  exact Nat.mul_lt_mul_of_pos_left hm (by decide)

/-- The parts of a finite double. -/
theorem decode?_range {x : Float} {d : Dyadic} (h : Double.decode? x = some d) :
    d.mantissa < twoTo 53 ∧ -1074 ≤ d.exponent ∧ d.exponent ≤ 971 := by
  have double : twoTo 53 = 2 * twoTo 52 := by decide +kernel
  unfold Double.decode? at h
  dsimp only at h
  have hf := Nat.mod_lt x.toBits.toNat (twoTo_pos 52)
  have hn := Nat.mod_lt (x.toBits.toNat / twoTo 52) (twoTo_pos 11)
  change _ < 2048 at hn
  generalize x.toBits.toNat % twoTo 52 = fraction at *
  generalize x.toBits.toNat / twoTo 52 % twoTo 11 = field at *
  generalize twoTo 52 = t at *
  rw [double]
  split at h
  · cases h
  · split at h
    · cases h
      dsimp only
      omega
    · cases h
      dsimp only
      omega

theorem short_numeralOf (tie : Tie) {x : Float} {d : Dyadic} (h : Double.decode? x = some d) :
    (numeralOf tie d).Short := by
  obtain ⟨hm, hlow, hhigh⟩ := decode?_range h
  unfold numeralOf
  split
  · exact short_zero
  · have ht := fits_target hm hlow hhigh
    have := magnitude_range ht
    exact short_stripZeros (short_search ht (by omega) (by omega))

/-! ### Texts -/

/-- The positional text of a double. -/
theorem weight_plain (x : Float) : weight (plain x).toList ≤ longestText := by
  unfold plain textBy
  split
  · next d h => exact weight_signed _ (weight_positional (short_numeralOf .larger h))
  · split
    · decide
    · split <;> decide

theorem roundEven_le (num den : Nat) : roundEven num den ≤ num + 1 := by
  have := Nat.div_le_self num den
  unfold roundEven
  grind

/-- The text of a double with at most a hundred places behind the point. -/
theorem weight_fixed (x : Float) {places : Nat} (hp : places ≤ 100) :
    weight (fixed x places).toList ≤ longestText := by
  unfold fixed
  split
  · exact weight_plain x
  · next d h =>
    obtain ⟨hm, -, hhigh⟩ := decode?_range h
    have room : twoTo 53 * tenTo 100 * twoTo 971 + 1 < tenTo 410 := by decide +kernel
    have hn : (Double.shifted (d.mantissa * tenTo places) 1 d.exponent).1 ≤
        twoTo 53 * tenTo 100 * twoTo 971 :=
      Nat.le_trans (shifted_le (by omega))
        (Nat.mul_le_mul_right _ (Nat.mul_le_mul (Nat.le_of_lt hm) (tenTo_le hp)))
    generalize Double.shifted (d.mantissa * tenTo places) 1 d.exponent = ratio at *
    generalize twoTo 53 * tenTo 100 * twoTo 971 = bound at *
    have hr : roundEven ratio.1 ratio.2 < tenTo 410 := by
      have := roundEven_le ratio.1 ratio.2
      omega
    have hl := length_decimalDigits_le (by decide) hr
    have hw := weight_decimalDigits (roundEven ratio.1 ratio.2)
    refine weight_signed _ (n := 654) ?_
    generalize decimalDigits (roundEven ratio.1 ratio.2) = ds at *
    have hds : weight (zeros (places + 1 - ds.length) ++ ds) ≤ 410 := by
      rw [Text.weight_append, weight_zeros]
      omega
    split
    · exact Nat.le_trans hds (by decide)
    · generalize zeros (places + 1 - ds.length) ++ ds = ds at *
      have := weight_take_add_drop (ds.length - places) ds
      rw [Text.weight_append, Text.weight_cons]
      change _ + (1 + _) ≤ 654
      omega

end LiveNotes.Number
