import LiveNotes.Proofs.Number.Equality
import LiveNotes.Proofs.Number.Whole

/-!
How the doubles nearest to whole numbers compare: as the whole numbers that they are themselves. Rounding
does not change the order of two numbers, but it can make them equal.

* `nearestDouble_mono`: rounding keeps the order;
* `IsWholeNumber x n`: a double is an integer; `compare_wholeNumbers`: such doubles compare as the integers;
* `order?_ofInteger`, `beq_ofInteger`: whole numbers turned into doubles;
* `order?_swap`: two doubles the other way round.
-/

namespace LiveNotes.Number

open Float.Model (UnpackedFloat)

/-! ### Rounding keeps the order -/

theorem roundEven_mono {m n den : Nat} (hden : 0 < den) (h : m ≤ n) :
    roundEven m den ≤ roundEven n den := by
  obtain ⟨hup, -⟩ := @roundEven_near m den hden
  obtain ⟨-, hdown⟩ := @roundEven_near n den hden
  by_contra hlt
  have hstep : (roundEven n den + 1) * den ≤ roundEven m den * den := Nat.mul_le_mul_right den (by omega)
  rw [Nat.add_mul] at hstep
  -- both quotients are halves between the same neighbours, and then they are the same
  obtain rfl : m = n := by omega
  exact hlt (Nat.le_refl _)

/-- Rounding does not go below a power of two. -/
theorem le_nearestSize {n : Nat} (h0 : n ≠ 0) : 2 ^ n.log2 ≤ nearestSize n := by
  have hpowers : n.log2 + (52 - n.log2) = 52 + (n.log2 - 52) := by omega
  have hle : 2 ^ n.log2 * 2 ^ (52 - n.log2) ≤ nearestSize n * 2 ^ (52 - n.log2) := by
    rw [← significand_mul, ← Nat.pow_add, hpowers, Nat.pow_add]
    exact Nat.mul_le_mul_right _ (significand_range h0).1
  exact Nat.le_of_mul_le_mul_right hle (Nat.two_pow_pos _)

theorem nearestSize_mono {m n : Nat} (h : m ≤ n) : nearestSize m ≤ nearestSize n := by
  by_cases hm : m = 0
  · rw [hm]
    exact Nat.zero_le _
  · have hn : n ≠ 0 := by omega
    have hlog : m.log2 ≤ n.log2 := (Nat.le_log2 hn).2 (Nat.le_trans (Nat.log2_self_le hm) h)
    rcases Nat.eq_or_lt_of_le hlog with heq | hlt
    · unfold nearestSize
      rw [heq]
      exact Nat.mul_le_mul_right _ (roundEven_mono (Nat.two_pow_pos _) h)
    · calc nearestSize m
        _ ≤ 2 ^ (m.log2 + 1) := nearestSize_le Nat.lt_log2_self
        _ ≤ 2 ^ n.log2 := Nat.pow_le_pow_right (by decide) hlt
        _ ≤ nearestSize n := le_nearestSize hn

/-- Of two integers, the one that is not greater does not become the greater double. -/
theorem nearestDouble_mono {m n : Int} (h : m ≤ n) : nearestDouble m ≤ nearestDouble n := by
  unfold nearestDouble
  split
  · split
    · have := nearestSize_mono (show n.natAbs ≤ m.natAbs by omega)
      omega
    · omega
  · have := nearestSize_mono (show m.natAbs ≤ n.natAbs by omega)
    rw [if_neg (by omega)]
    omega

/-! ### Doubles that are integers -/

/-- The mantissas of 53 bits are compared only where the exponents are the same. -/
theorem compare_fullParts {m n : Nat} {e f : Int} (hm : FullParts m e) (hn : FullParts n f) :
    (compare e f).then (compare m n) =
      compare (m * 2 ^ (e + 1074).toNat) (n * 2 ^ (f + 1074).toNat) := by
  have hless {m n : Nat} {e f : Int} (hm : FullParts m e) (hn : FullParts n f) (h : e < f) :
      m * 2 ^ (e + 1074).toNat < n * 2 ^ (f + 1074).toNat := by
    obtain ⟨-, hm', he, -⟩ := hm
    have hpow : 2 ^ ((e + 1074).toNat + 1) ≤ 2 ^ (f + 1074).toNat :=
      Nat.pow_le_pow_right (by decide) (by omega)
    calc m * 2 ^ (e + 1074).toNat
      _ < 2 ^ 53 * 2 ^ (e + 1074).toNat := Nat.mul_lt_mul_of_pos_right hm' (Nat.two_pow_pos _)
      _ = 2 ^ 52 * 2 ^ ((e + 1074).toNat + 1) := by rw [Nat.pow_succ]; omega
      _ ≤ n * 2 ^ (f + 1074).toNat := Nat.mul_le_mul hn.le_mantissa hpow
  rcases lt_trichotomy e f with h | rfl | h
  · rw [compare_lt_iff_lt.2 h, compare_lt_iff_lt.2 (hless hm hn h)]
    rfl
  · rw [compare_eq_iff_eq.2 rfl, ← cmp_eq_compare, ← cmp_eq_compare]
    exact (StrictMono.cmp_map_eq (fun a b h => Nat.mul_lt_mul_of_pos_right h (Nat.two_pow_pos _)) m n).symm
  · rw [compare_gt_iff_gt.2 h, compare_gt_iff_gt.2 (hless hn hm h)]
    rfl

theorem HasParts.unpack {x : Float} {negative : Bool} {m : Nat} {e : Int} (h : HasParts x negative m e) :
    x.toModel.unpack = .finite (signOf negative) m e h.full.pos :=
  unpack_partsBits h.full h.bits

/-- A double is an integer: it is zero, or a multiple of the least positive double that has the size of the
integer. -/
inductive IsWholeNumber (x : Float) : Int → Prop where
  | zero {s : UnpackedFloat.Sign} (h : x.toModel.unpack = .zero s) : IsWholeNumber x 0
  | finite {negative : Bool} {m n : Nat} {e : Int} (h : HasParts x negative m e)
      (hn : m * 2 ^ (e + 1074).toNat = n * 2 ^ 1074) :
      IsWholeNumber x (if negative then -(n : Int) else n)

theorem compare_natCast (m n : Nat) : compare (m : Int) (n : Int) = compare m n := by
  rw [← cmp_eq_compare, ← cmp_eq_compare]
  exact StrictMono.cmp_map_eq (fun a b h => Int.ofNat_lt.2 h) m n

theorem compare_neg_natCast (m n : Nat) : compare (-(m : Int)) (-(n : Int)) = (compare m n).swap := by
  rw [← compare_natCast, ← cmp_eq_compare, ← cmp_eq_compare, cmp_swap]
  exact StrictAnti.cmp_map_eq (fun a b h => by omega) _ _

theorem compare_mul_right {k : Nat} (hk : 0 < k) (m n : Nat) : compare (m * k) (n * k) = compare m n := by
  rw [← cmp_eq_compare, ← cmp_eq_compare]
  exact StrictMono.cmp_map_eq (fun a b h => Nat.mul_lt_mul_of_pos_right h hk) m n

section Compare

variable {x y : Float} {negative : Bool} {m n : Nat} {e : Int}

theorem pos_of_hasParts (h : HasParts x negative m e) (hn : m * 2 ^ (e + 1074).toNat = n * 2 ^ 1074) :
    0 < n := by
  have hpos := Nat.mul_pos h.full.pos (Nat.two_pow_pos (e + 1074).toNat)
  rw [hn] at hpos
  exact Nat.pos_of_mul_pos_right hpos

/-- Doubles that are integers compare as these. -/
theorem compare_wholeNumbers {j k : Int} (hx : IsWholeNumber x j) (hy : IsWholeNumber y k) :
    x.toModel.unpack.compare y.toModel.unpack = some (compare j k) := by
  cases hx with
  | zero hx =>
    cases hy with
    | zero hy =>
      rw [hx, hy]
      rfl
    | @finite negative m n e hy hn =>
      have hpos := pos_of_hasParts hy hn
      rw [hx, hy.unpack]
      cases negative with
      | true => exact congrArg some (compare_gt_iff_gt.2 (show -(n : Int) < 0 by omega)).symm
      | false => exact congrArg some (compare_lt_iff_lt.2 (show 0 < (n : Int) by omega)).symm
  | @finite negative m n e hx hn =>
    have hpos := pos_of_hasParts hx hn
    cases hy with
    | zero hy =>
      rw [hx.unpack, hy]
      cases negative with
      | true => exact congrArg some (compare_lt_iff_lt.2 (show -(n : Int) < 0 by omega)).symm
      | false => exact congrArg some (compare_gt_iff_gt.2 (show 0 < (n : Int) by omega)).symm
    | @finite negative' m' n' e' hy hn' =>
      have hpos' := pos_of_hasParts hy hn'
      have hsize : (compare e e').then (compare m m') = compare n n' := by
        rw [compare_fullParts hx.full hy.full, hn, hn', compare_mul_right (Nat.two_pow_pos _)]
      rw [hx.unpack, hy.unpack]
      cases negative with
      | true =>
        cases negative' with
        | true => exact congrArg some ((congrArg Ordering.swap hsize).trans (compare_neg_natCast n n').symm)
        | false => exact congrArg some (compare_lt_iff_lt.2 (show -(n : Int) < n' by omega)).symm
      | false =>
        cases negative' with
        | true => exact congrArg some (compare_gt_iff_gt.2 (show -(n' : Int) < n by omega)).symm
        | false => exact congrArg some (hsize.trans (compare_natCast n n').symm)

end Compare

/-! ### Whole numbers turned into doubles -/

/-- The double nearest to a whole number is the integer nearest to it. -/
theorem isWholeNumber_ofInteger (a : Int64) : IsWholeNumber (Double.ofInteger a) (nearestDouble a.toInt) := by
  obtain ⟨h0, hzero⟩ | ⟨m, e, hparts, hmul⟩ := ofInteger_cases a
  · rw [hzero, h0]
    exact .zero (s := .positive) rfl
  · have hscaled : m * 2 ^ (e + 1074).toNat = nearestSize a.toInt.natAbs * 2 ^ 1074 := by
      have he := hparts.full.le_exponent
      have hpowers : 2 ^ (e + 1074).toNat * 2 ^ (-e).toNat = 2 ^ e.toNat * 2 ^ 1074 := by
        rw [← Nat.pow_add, ← Nat.pow_add]
        congr 1
        omega
      refine Nat.mul_right_cancel (Nat.two_pow_pos (-e).toNat) ?_
      rw [Nat.mul_assoc, hpowers, ← Nat.mul_assoc, hmul, Nat.mul_right_comm]
    have hfinite := IsWholeNumber.finite hparts hscaled
    simp only [decide_eq_true_eq] at hfinite
    exact hfinite

theorem lt_iff_compare (x y : Float) :
    x < y ↔ x.toModel.unpack.compare y.toModel.unpack = some .lt := by
  change decide (x.toModel < y.toModel) = true ↔ _
  rw [decide_eq_true_iff]
  change (x.toModel.unpack.compare y.toModel.unpack == some .lt) = true ↔ _
  exact beq_iff_eq

/-- The order of two doubles is that of the numbers that they are. -/
theorem order?_eq_compare (x y : Float) :
    Double.order? x y = x.toModel.unpack.compare y.toModel.unpack := by
  have hlt := lt_iff_compare x y
  have heq : (x == y) = (x.toModel.unpack.compare y.toModel.unpack == some .eq) := rfl
  have hgt := lt_iff_compare y x
  rw [Double.compare_swap x.toModel.unpack y.toModel.unpack] at hgt
  unfold Double.order?
  rw [heq]
  cases hc : x.toModel.unpack.compare y.toModel.unpack with
  | none => simp [hlt, hgt, hc]
  | some o => cases o <;> simp [hlt, hgt, hc]

/-- Two doubles the other way round are in the order the other way round. -/
theorem order?_swap (x y : Float) : Double.order? y x = (Double.order? x y).map Ordering.swap := by
  rw [order?_eq_compare, order?_eq_compare, Double.compare_swap]

theorem beq_ofInteger (a b : Int64) : (Double.ofInteger a == Double.ofInteger b) =
    decide (nearestDouble a.toInt = nearestDouble b.toInt) := by
  change (_ == some Ordering.eq) = _
  rw [compare_wholeNumbers (isWholeNumber_ofInteger a) (isWholeNumber_ofInteger b), Bool.eq_iff_iff,
    beq_iff_eq, Option.some_inj, compare_eq_iff_eq, decide_eq_true_iff]

/-- Whole numbers turned into doubles are ordered as what is left of them. -/
theorem order?_ofInteger (a b : Int64) : Double.order? (Double.ofInteger a) (Double.ofInteger b) =
    some (compare (nearestDouble a.toInt) (nearestDouble b.toInt)) := by
  have hlt (a b : Int64) :
      Double.ofInteger a < Double.ofInteger b ↔ nearestDouble a.toInt < nearestDouble b.toInt := by
    rw [lt_iff_compare, compare_wholeNumbers (isWholeNumber_ofInteger a) (isWholeNumber_ofInteger b),
      Option.some_inj, compare_lt_iff_lt]
  unfold Double.order?
  rw [beq_ofInteger]
  rcases lt_trichotomy (nearestDouble a.toInt) (nearestDouble b.toInt) with h | h | h
  · rw [if_pos ((hlt a b).2 h), compare_lt_iff_lt.2 h]
  · rw [if_neg (by rw [hlt]; omega), decide_eq_true h, if_pos rfl, compare_eq_iff_eq.2 h]
  · rw [if_neg (by rw [hlt]; omega), decide_eq_false (by omega), if_neg Bool.false_ne_true,
      if_pos ((hlt b a).2 h), compare_gt_iff_gt.2 h]

end LiveNotes.Number
