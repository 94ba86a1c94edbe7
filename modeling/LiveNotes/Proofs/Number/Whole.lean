import Mathlib
import LiveNotes.Number.Decimal

/-!
Whole numbers on their way through doubles and decimals: a number of 64 bits is rounded to 53 bits when
it becomes a double, and from there on nothing is lost any more.

* `nearestDouble`: the double nearest to an integer, as an integer;
* `HasParts`: the sign, the mantissa and the exponent that the bits of a double stand for;
* `ofInteger_cases`: the parts of a whole number turned into a double; `toInteger_ofInteger`: and back;
* `ofFloat?_ofInteger`: a whole number turned into a double and then into a decimal;
* `Decimal.ofInt`: the decimal of an integer; `add?_ofInt`, `sub?_ofInt` and `mul?_ofInt` are exact.
-/

namespace LiveNotes.Number

open Float.Model (UnpackedFloat Format)
open Float.Model.UnpackedFloat (Sign unpackMantissa unpackExponent unpackSign packComponents)

/-! ### The bits of a double -/

/-- The sign of a number that is negative or not. -/
def signOf : Bool → Sign
  | true => .negative
  | false => .positive

/-- The bits of a double with all 53 bits of its mantissa. The first of them is not written, so that
it counts as one more in the field of the exponent. -/
def partsBits (negative : Bool) (m : Nat) (e : Int) : Nat :=
  negative.toNat * 2 ^ 63 + ((e + 1074).toNat * 2 ^ 52 + m)

/-- The range of the mantissas and exponents of such doubles. -/
structure FullParts (m : Nat) (e : Int) : Prop where
  le_mantissa : 2 ^ 52 ≤ m
  mantissa_lt : m < 2 ^ 53
  le_exponent : -1074 ≤ e
  exponent_le : e ≤ 971

theorem FullParts.pos {m : Nat} {e : Int} (h : FullParts m e) : 0 < m :=
  Nat.lt_of_lt_of_le (by decide) h.le_mantissa

theorem toNat_unpackMantissa (b : BitVec 64) :
    (@unpackMantissa Format.binary64 b).toNat = b.toNat % 2 ^ 52 := by
  simp [unpackMantissa, BitVec.extractLsb_toNat]

theorem toNat_unpackExponent (b : BitVec 64) :
    (@unpackExponent Format.binary64 b).toNat = b.toNat / 2 ^ 52 % 2 ^ 11 := by
  simp [unpackExponent, BitVec.extractLsb_toNat, Nat.shiftRight_eq_div_pow]

theorem toNat_unpackSign (b : BitVec 64) :
    (@unpackSign Format.binary64 b).toNat = b.toNat / 2 ^ 63 := by
  have := b.isLt
  simp [unpackSign, BitVec.extractLsb_toNat, Nat.shiftRight_eq_div_pow]
  omega

theorem toNat_toBitVec_signOf (negative : Bool) : (signOf negative).toBitVec.toNat = negative.toNat := by
  cases negative <;> rfl

theorem ofBitVec_eq_signOf {b : BitVec 1} {negative : Bool} (h : b.toNat = negative.toNat) :
    Sign.ofBitVec b = signOf negative := by
  have : b = (signOf negative).toBitVec := BitVec.eq_of_toNat_eq (by rw [h, toNat_toBitVec_signOf])
  rw [this]
  cases negative <;> rfl

section Parts

variable {negative : Bool} {m : Nat} {e : Int}

/-- The three fields of the bits. -/
theorem FullParts.fields (h : FullParts m e) {b : Nat} (hb : b = partsBits negative m e) :
    b / 2 ^ 63 = negative.toNat ∧ b / 2 ^ 52 % 2 ^ 11 = (e + 1075).toNat ∧
      b % 2 ^ 52 = m - 2 ^ 52 := by
  obtain ⟨hm, hm', he, he'⟩ := h
  rw [hb]
  unfold partsBits
  cases negative <;> simp only [Bool.toNat_true, Bool.toNat_false] <;> omega

/-- The fields side by side. -/
theorem toNat_packComponents (exponent : BitVec 11) (mantissa : BitVec 52) :
    (packComponents Format.binary64 (signOf negative) exponent mantissa).toNat =
      negative.toNat * 2 ^ 63 + (exponent.toNat * 2 ^ 52 + mantissa.toNat) := by
  have he := exponent.isLt
  have hm := mantissa.isLt
  change ((signOf negative).toBitVec ++ exponent ++ mantissa).toNat = _
  rw [BitVec.toNat_append, BitVec.toNat_append, Nat.shiftLeft_eq, Nat.shiftLeft_eq,
    Nat.mul_comm _ (2 ^ 52), ← Nat.two_pow_add_eq_or_of_lt hm, Nat.mul_comm _ (2 ^ 11),
    ← Nat.two_pow_add_eq_or_of_lt he, toNat_toBitVec_signOf]
  omega

theorem unpack_partsBits (h : FullParts m e) {b : BitVec 64}
    (hb : b.toNat = partsBits negative m e) :
    UnpackedFloat.unpack Format.binary64 b = .finite (signOf negative) m e h.pos := by
  obtain ⟨hsign, hfield, hfraction⟩ := h.fields hb
  obtain ⟨hm, hm', he, he'⟩ := h
  rw [← toNat_unpackSign] at hsign
  rw [← toNat_unpackExponent] at hfield
  rw [← toNat_unpackMantissa] at hfraction
  have hinfinite : @unpackExponent Format.binary64 b ≠ -1#_ := by
    intro h
    rw [h] at hfield
    change 2047 = _ at hfield
    omega
  have hsmall : @unpackExponent Format.binary64 b ≠ 0#_ := by
    intro h
    rw [h] at hfield
    change 0 = _ at hfield
    omega
  have hmantissa : (1#1 ++ @unpackMantissa Format.binary64 b).toNat = m := by
    have hlt := (@unpackMantissa Format.binary64 b).isLt
    rw [BitVec.toNat_append, Nat.shiftLeft_eq, Nat.mul_comm, ← Nat.two_pow_add_eq_or_of_lt hlt,
      hfraction]
    change 2 ^ 52 * 1 + (m - 2 ^ 52) = m
    omega
  have hexponent : ((@unpackExponent Format.binary64 b).toNat : Int) -
      (Format.binary64.exponentBias + Format.binary64.mantissaBitsWithoutImplicit) = e := by
    rw [hfield]
    change ((e + 1075).toNat : Int) - (1023 + 52) = e
    omega
  unfold UnpackedFloat.unpack
  dsimp only
  rw [if_neg hinfinite, if_neg hsmall]
  simp only [UnpackedFloat.finite.injEq]
  exact ⟨ofBitVec_eq_signOf hsign, hmantissa, hexponent⟩

theorem toNat_pack (h : FullParts m e) :
    (UnpackedFloat.pack Format.binary64 (.finite (signOf negative) m e h.pos)).toNat =
      partsBits negative m e := by
  obtain ⟨hm, hm', he, he'⟩ := h
  have hlog : m.log2 = 52 := (Nat.log2_eq_iff (by omega)).2 ⟨hm, hm'⟩
  have hfield : (e + Format.binary64.exponentBias + Format.binary64.mantissaBitsWithoutImplicit).toNat =
      (e + 1075).toNat := by
    change (e + 1023 + 52).toNat = _
    omega
  have hfinite : ¬ 2 ^ Format.binary64.exponentBits ≤ (e + 1075).toNat + 1 := by
    change ¬ 2 ^ 11 ≤ _
    omega
  unfold UnpackedFloat.pack partsBits
  dsimp only
  rw [hlog, hfield, if_neg hfinite, if_pos (show 52 + 1 = Format.binary64.mantissaBits from rfl),
    toNat_packComponents, BitVec.toNat_ofNat, BitVec.toNat_ofNat]
  change _ + ((e + 1075).toNat % 2 ^ 11 * 2 ^ 52 + m % 2 ^ 52) = _
  omega

/-- The double with a sign, a mantissa of 53 bits and an exponent. -/
structure HasParts (x : Float) (negative : Bool) (m : Nat) (e : Int) : Prop where
  full : FullParts m e
  bits : x.toBits.toNat = partsBits negative m e

theorem HasParts.ofBits (h : FullParts m e) {u : UInt64} (hu : u.toNat = partsBits negative m e) :
    HasParts (Float.ofBits u) negative m e := by
  refine ⟨h, ?_⟩
  change (UnpackedFloat.pack _ (UnpackedFloat.unpack Format.binary64 u.toBitVec)).toNat = _
  rw [unpack_partsBits h hu]
  exact toNat_pack h

theorem HasParts.neg {x : Float} (h : HasParts x negative m e) : HasParts (-x) (!negative) m e := by
  have hsign : (UnpackedFloat.finite (signOf negative) m e h.full.pos).neg =
      .finite (signOf (!negative)) m e h.full.pos := by
    cases negative <;> rfl
  refine ⟨h.full, ?_⟩
  change (UnpackedFloat.pack _ (UnpackedFloat.unpack Format.binary64 x.toBits.toBitVec).neg).toNat = _
  rw [unpack_partsBits h.full h.bits, hsign]
  exact toNat_pack h.full

theorem HasParts.decode? {x : Float} (h : HasParts x negative m e) :
    Double.decode? x = some ⟨negative, m, e⟩ := by
  obtain ⟨hsign, hfield, hfraction⟩ := h.full.fields h.bits
  obtain ⟨hm, hm', he, he'⟩ := h.full
  have hfield' : x.toBits.toNat / twoTo 52 % twoTo 11 = (e + 1075).toNat := hfield
  have hmantissa : twoTo 52 + x.toBits.toNat % twoTo 52 = m := by
    have : twoTo 52 + x.toBits.toNat % twoTo 52 = twoTo 52 + (m - 2 ^ 52) := congrArg _ hfraction
    rw [this]
    exact Nat.add_sub_cancel' hm
  have hnegative : decide (twoTo 63 ≤ x.toBits.toNat) = negative := by
    have : twoTo 63 = 2 ^ 63 := rfl
    cases negative <;> simp only [Bool.toNat_true, Bool.toNat_false] at hsign <;> simp <;> omega
  unfold Double.decode?
  dsimp only
  rw [hfield', hmantissa, hnegative, if_neg (by omega), if_neg (by omega)]
  congr 2
  omega

end Parts

/-! ### The double nearest to a whole number -/

/-- The double nearest to a whole number, as a whole number: 53 bits of it are kept. -/
def nearestSize (n : Nat) : Nat := roundEven n (twoTo (n.log2 - 52)) * twoTo (n.log2 - 52)

/-- The double nearest to an integer, as an integer. -/
def nearestDouble (n : Int) : Int := if n < 0 then -nearestSize n.natAbs else nearestSize n.natAbs

theorem nearestSize_of_lt {n : Nat} (h : n < 2 ^ 53) : nearestSize n = n := by
  have hlog : n.log2 - 52 = 0 := by
    by_cases h0 : n = 0
    · rw [h0]
      rfl
    · have := (Nat.log2_lt h0).2 h
      omega
  have := roundEven_mul n Nat.one_pos
  simp only [Nat.mul_one] at this
  unfold nearestSize
  rw [hlog]
  change roundEven n 1 * 1 = n
  rw [Nat.mul_one, this]

/-- A whole number shifted by what it lacks of `k` bits, or has more than those. -/
theorem shifted_scale (n k : Nat) : Double.shifted n 1 (-((n.log2 : Int) - k)) =
    (n * 2 ^ (k - n.log2), 2 ^ (n.log2 - k)) := by
  unfold Double.shifted
  split
  · rename_i hk
    have h1 : (-((n.log2 : Int) - k)).toNat = k - n.log2 := by omega
    have h2 : n.log2 - k = 0 := by omega
    rw [h1, h2]
    rfl
  · rename_i hk
    have h1 : (- -((n.log2 : Int) - k)).toNat = n.log2 - k := by omega
    have h2 : k - n.log2 = 0 := by omega
    rw [h1, h2, Nat.one_mul, Nat.pow_zero, Nat.mul_one]
    rfl

/-- A whole number against the least one of `k` bits, where the shorter one is filled up. -/
theorem le_scaled {n : Nat} (h0 : n ≠ 0) (k : Nat) :
    2 ^ k * 2 ^ (n.log2 - k) ≤ n * 2 ^ (k - n.log2) := by
  have : k + (n.log2 - k) = n.log2 + (k - n.log2) := by omega
  rw [← Nat.pow_add, this, Nat.pow_add]
  exact Nat.mul_le_mul_right _ (Nat.log2_self_le h0)

theorem scaled_lt (n k : Nat) : n * 2 ^ (k - n.log2) < 2 ^ (k + 1) * 2 ^ (n.log2 - k) := by
  have : k + 1 + (n.log2 - k) = n.log2 + 1 + (k - n.log2) := by omega
  rw [← Nat.pow_add, this, Nat.pow_add]
  exact Nat.mul_lt_mul_of_pos_right Nat.lt_log2_self (Nat.two_pow_pos _)

/-- A whole number cut or filled up to 53 bits. If all of them were ones, rounding can make it one more
than the greatest mantissa. -/
def significand (n : Nat) : Nat := roundEven (n * 2 ^ (52 - n.log2)) (2 ^ (n.log2 - 52))

/-- A significand is off by one half at most. -/
theorem significand_near (n : Nat) :
    2 * (significand n * 2 ^ (n.log2 - 52)) ≤ 2 * (n * 2 ^ (52 - n.log2)) + 2 ^ (n.log2 - 52) ∧
      2 * (n * 2 ^ (52 - n.log2)) ≤ 2 * (significand n * 2 ^ (n.log2 - 52)) + 2 ^ (n.log2 - 52) :=
  roundEven_near (Nat.two_pow_pos _)

theorem significand_range {n : Nat} (h0 : n ≠ 0) :
    2 ^ 52 ≤ significand n ∧ significand n ≤ 2 ^ 53 := by
  have hle := le_scaled h0 52
  have hlt := scaled_lt n 52
  obtain ⟨hup, hdown⟩ := significand_near n
  generalize significand n = m at *
  generalize 2 ^ (n.log2 - 52) = d at *
  constructor
  · by_contra h
    have : (m + 1) * d ≤ 2 ^ 52 * d := Nat.mul_le_mul_right d (by omega)
    rw [Nat.add_mul] at this
    omega
  · by_contra h
    have : (2 ^ 53 + 1) * d ≤ m * d := Nat.mul_le_mul_right d (by omega)
    omega

theorem significand_mul (n : Nat) :
    significand n * 2 ^ (n.log2 - 52) = nearestSize n * 2 ^ (52 - n.log2) := by
  unfold significand
  by_cases hlog : n.log2 ≤ 52
  · have h1 : n.log2 - 52 = 0 := by omega
    have h2 : n < 2 ^ 53 :=
      Nat.lt_of_lt_of_le Nat.lt_log2_self (Nat.pow_le_pow_right (by decide) (by omega))
    rw [h1, nearestSize_of_lt h2]
    simpa using roundEven_mul (n * 2 ^ (52 - n.log2)) Nat.one_pos
  · have h1 : 52 - n.log2 = 0 := by omega
    rw [h1, Nat.pow_zero, Nat.mul_one, Nat.mul_one]
    rfl

/-- The double nearest to a whole number is made of its significand. -/
theorem ofRatio_one {n : Nat} (h0 : n ≠ 0) (h : n < 2 ^ 64) : Double.ofRatio n 1 =
    Float.ofBits (UInt64.ofNat ((n.log2 + 1022) * 2 ^ 52 + significand n)) := by
  have hlog : n.log2 < 64 := (Nat.log2_lt h0).2 h
  have hlow : max (-1074) ((n.log2 : Int) - (Nat.log2 1 : Nat) - 53) = n.log2 - 53 := by
    rw [show Nat.log2 1 = 0 from by decide]
    omega
  have h53 : Double.shifted n 1 (-((n.log2 : Int) - 53)) = _ := shifted_scale n 53
  have h52 : Double.shifted n 1 (-((n.log2 : Int) - 52)) = _ := shifted_scale n 52
  have hquotient : twoTo 53 ≤ n * 2 ^ (53 - n.log2) / 2 ^ (n.log2 - 53) :=
    (Nat.le_div_iff_mul_le (Nat.two_pow_pos _)).2 (le_scaled h0 53)
  have hexponent : (n.log2 : Int) - 53 + 1 = n.log2 - 52 := by omega
  have hbias : ((n.log2 : Int) - 52 + 1074).toNat = n.log2 + 1022 := by omega
  have hfinite : ¬ 2047 * twoTo 52 ≤ (n.log2 + 1022) * twoTo 52 + significand n := by
    have := (significand_range h0).2
    change ¬ 2047 * 2 ^ 52 ≤ (n.log2 + 1022) * 2 ^ 52 + significand n
    omega
  unfold Double.ofRatio
  rw [if_neg h0]
  dsimp only
  rw [hlow, h53]
  dsimp only
  rw [if_pos hquotient, hexponent, h52, hbias]
  exact if_neg hfinite

/-- The double has all the parts that make these bits. -/
theorem hasParts_ofRatio {n m : Nat} {e : Int} (h0 : n ≠ 0) (h : n < 2 ^ 64) (hfull : FullParts m e)
    (hbits : partsBits false m e = (n.log2 + 1022) * 2 ^ 52 + significand n) :
    HasParts (Double.ofRatio n 1) false m e := by
  have hlog : n.log2 < 64 := (Nat.log2_lt h0).2 h
  have hle := (significand_range h0).2
  rw [ofRatio_one h0 h]
  refine .ofBits hfull ?_
  rw [hbits]
  exact UInt64.toNat_ofNat_of_lt' (by change _ < 2 ^ 64; omega)

/-- The mantissa and the exponent of the double nearest to a whole number. -/
theorem exists_hasParts {n : Nat} (h0 : n ≠ 0) (h : n < 2 ^ 64) :
    ∃ m e, HasParts (Double.ofRatio n 1) false m e ∧
      m * 2 ^ e.toNat = nearestSize n * 2 ^ (-e).toNat := by
  have hlog : n.log2 < 64 := (Nat.log2_lt h0).2 h
  have hmul := significand_mul n
  obtain ⟨hle, hge⟩ := significand_range h0
  by_cases hcarry : significand n = 2 ^ 53
  · -- rounding has carried into a bit more: the mantissa is halved and the exponent goes up
    have hfull : FullParts (2 ^ 52) (n.log2 - 51) := ⟨by omega, by omega, by omega, by omega⟩
    have hbits : partsBits false (2 ^ 52) (n.log2 - 51) = (n.log2 + 1022) * 2 ^ 52 + significand n := by
      unfold partsBits
      simp only [Bool.toNat_false]
      omega
    refine ⟨_, _, hasParts_ofRatio h0 h hfull hbits, ?_⟩
    rw [hcarry] at hmul
    by_cases hlong : 52 ≤ n.log2
    · have h1 : ((n.log2 : Int) - 51).toNat = n.log2 - 52 + 1 := by omega
      have h2 : (-((n.log2 : Int) - 51)).toNat = 52 - n.log2 := by omega
      rw [h1, h2, ← hmul, Nat.pow_succ]
      omega
    · have h1 : ((n.log2 : Int) - 51).toNat = 0 := by omega
      have h2 : (-((n.log2 : Int) - 51)).toNat = 51 - n.log2 := by omega
      have h3 : n.log2 - 52 = 0 := by omega
      have h4 : 52 - n.log2 = 51 - n.log2 + 1 := by omega
      rw [h3, h4, Nat.pow_succ 2 (51 - n.log2), ← Nat.mul_assoc] at hmul
      rw [h1, h2]
      omega
  · have hfull : FullParts (significand n) (n.log2 - 52) := ⟨hle, by omega, by omega, by omega⟩
    have hbits : partsBits false (significand n) (n.log2 - 52) =
        (n.log2 + 1022) * 2 ^ 52 + significand n := by
      unfold partsBits
      simp only [Bool.toNat_false]
      omega
    have h1 : ((n.log2 : Int) - 52).toNat = n.log2 - 52 := by omega
    have h2 : (-((n.log2 : Int) - 52)).toNat = 52 - n.log2 := by omega
    refine ⟨_, _, hasParts_ofRatio h0 h hfull hbits, ?_⟩
    rw [h1, h2]
    exact hmul

theorem nearestSize_pos {n : Nat} (h0 : n ≠ 0) : 0 < nearestSize n := by
  have hpos : 0 < significand n * 2 ^ (n.log2 - 52) :=
    Nat.mul_pos (Nat.lt_of_lt_of_le (by decide) (significand_range h0).1) (Nat.two_pow_pos _)
  rw [significand_mul] at hpos
  exact Nat.pos_of_mul_pos_right hpos

/-- Rounding does not go beyond a power of two. -/
theorem nearestSize_le {n k : Nat} (h : n < 2 ^ k) : nearestSize n ≤ 2 ^ k := by
  by_cases h0 : n = 0
  · rw [h0]
    exact Nat.zero_le _
  · have hlog : n.log2 + 1 ≤ k := (Nat.log2_lt h0).2 h
    have hpowers : 53 + (n.log2 - 52) = n.log2 + 1 + (52 - n.log2) := by omega
    have hle : nearestSize n * 2 ^ (52 - n.log2) ≤ 2 ^ (n.log2 + 1) * 2 ^ (52 - n.log2) := by
      rw [← significand_mul, ← Nat.pow_add, ← hpowers, Nat.pow_add]
      exact Nat.mul_le_mul_right _ (significand_range h0).2
    exact Nat.le_trans (Nat.le_of_mul_le_mul_right hle (Nat.two_pow_pos _))
      (Nat.pow_le_pow_right (by decide) hlog)

/-- The nearest double of an integer has its sign. -/
theorem nearestDouble_lt_zero_iff {n : Int} : nearestDouble n < 0 ↔ n < 0 := by
  unfold nearestDouble
  split
  · rename_i hn
    have := nearestSize_pos (n := n.natAbs) (by omega)
    omega
  · omega

theorem natAbs_nearestDouble (n : Int) : (nearestDouble n).natAbs = nearestSize n.natAbs := by
  unfold nearestDouble
  split <;> omega

/-- Integers of at most 53 bits are doubles. -/
theorem nearestDouble_of_natAbs_lt {n : Int} (h : n.natAbs < 2 ^ 53) : nearestDouble n = n := by
  unfold nearestDouble
  rw [nearestSize_of_lt h]
  split <;> omega

/-! ### From doubles back to whole numbers -/

/-- A double that is a whole number has no fraction to cut. -/
theorem toInteger_of_hasParts {x : Float} {negative : Bool} {m n : Nat} {e : Int}
    (h : HasParts x negative m e) (hn : m * 2 ^ e.toNat = n * 2 ^ (-e).toNat) :
    Double.toInteger x = clamp (if negative then -(n : Int) else n) := by
  have hquotient : (Double.shifted m 1 e).1 / (Double.shifted m 1 e).2 = n := by
    unfold Double.shifted
    split
    · rename_i he
      have hpow : (-e).toNat = 0 := by omega
      rw [hpow, Nat.pow_zero, Nat.mul_one] at hn
      rw [Nat.div_one]
      exact hn
    · rename_i he
      have hpow : e.toNat = 0 := by omega
      rw [hpow, Nat.pow_zero, Nat.mul_one] at hn
      rw [hn, Nat.one_mul]
      exact Nat.mul_div_cancel n (Nat.two_pow_pos _)
  unfold Double.toInteger
  rw [h.decode?]
  unfold Double.truncated
  dsimp only
  rw [hquotient]

theorem natAbs_toInt_lt (a : Int64) : a.toInt.natAbs < 2 ^ 64 := by
  have := Int64.le_toInt a
  have := Int64.toInt_lt a
  omega

/-- A whole number as a double is zero, or has the parts of the double nearest to it. -/
theorem ofInteger_cases (a : Int64) : a.toInt = 0 ∧ Double.ofInteger a = Double.ofRatio 0 1 ∨
    ∃ m e, HasParts (Double.ofInteger a) (decide (a.toInt < 0)) m e ∧
      m * 2 ^ e.toNat = nearestSize a.toInt.natAbs * 2 ^ (-e).toNat := by
  unfold Double.ofInteger
  dsimp only
  by_cases h0 : a.toInt = 0
  · rw [h0]
    exact .inl ⟨rfl, rfl⟩
  · obtain ⟨m, e, hparts, hmul⟩ := exists_hasParts (Int.natAbs_ne_zero.2 h0) (natAbs_toInt_lt a)
    refine .inr ⟨m, e, ?_, hmul⟩
    by_cases hneg : a.toInt < 0
    · rw [if_pos hneg, decide_eq_true hneg]
      exact hparts.neg
    · rw [if_neg hneg, decide_eq_false hneg]
      exact hparts

/-- A whole number that has become a double is cut to what the double has kept of it. -/
theorem toInteger_ofInteger (a : Int64) :
    Double.toInteger (Double.ofInteger a) = clamp (nearestDouble a.toInt) := by
  obtain ⟨h0, hzero⟩ | ⟨m, e, hparts, hmul⟩ := ofInteger_cases a
  · rw [hzero, h0]
    decide +kernel
  · rw [toInteger_of_hasParts hparts hmul, nearestDouble]
    simp only [decide_eq_true_eq]

/-! ### From doubles to decimals -/

namespace Decimal

/-- The decimal of an integer. -/
def ofInt (n : Int) : Decimal := ⟨n < 0, n.natAbs, 0⟩

theorem lt_capacity_of_le {n : Nat} (h : n ≤ 2 ^ 64) : n < capacity :=
  Nat.lt_of_le_of_lt h (by decide)

theorem absorbHalves_mul (k n : Nat) : absorbHalves k (n * 2 ^ k) 0 = (n, 0) := by
  induction k with
  | zero => simp [absorbHalves]
  | succ k ih =>
    have heven : n * 2 ^ (k + 1) = n * 2 ^ k * 2 := by rw [Nat.pow_succ, Nat.mul_assoc]
    unfold absorbHalves
    rw [if_neg (by rw [heven]; omega), heven, Nat.mul_div_cancel _ (by decide), ih]

/-- A double that is a whole number is that number as a decimal. -/
theorem ofFloat?_of_hasParts {x : Float} {negative : Bool} {m n : Nat} {e : Int}
    (h : HasParts x negative m e) (hn : m * 2 ^ e.toNat = n * 2 ^ (-e).toNat) (hle : n ≤ 2 ^ 64) :
    ofFloat? x = some ⟨negative, n, 0⟩ := by
  have hm := h.full.pos
  unfold ofFloat?
  rw [h.decode?]
  dsimp only
  split
  · rename_i he
    have hpow : (-e).toNat = 0 := by omega
    rw [hpow, Nat.pow_zero, Nat.mul_one] at hn
    change m * twoTo e.toNat = n at hn
    rw [hn, if_pos (lt_capacity_of_le hle)]
  · rename_i he
    have hpow : e.toNat = 0 := by omega
    rw [hpow, Nat.pow_zero, Nat.mul_one] at hn
    rw [if_neg (by omega), hn, absorbHalves_mul]
    rfl

/-- A whole number as a double as a decimal: what is lost is lost on the way to the double. -/
theorem ofFloat?_ofInteger (a : Int64) :
    ofFloat? (Double.ofInteger a) = some (ofInt (nearestDouble a.toInt)) := by
  obtain ⟨h0, hzero⟩ | ⟨m, e, hparts, hmul⟩ := ofInteger_cases a
  · rw [hzero, h0]
    decide +kernel
  · rw [ofFloat?_of_hasParts hparts hmul (nearestSize_le (natAbs_toInt_lt a)), ofInt,
      decide_eq_decide.2 nearestDouble_lt_zero_iff, natAbs_nearestDouble]

/-! ### Decimals of integers -/

theorem mantissaAt_whole (negative : Bool) (m : Nat) :
    mantissaAt ⟨negative, m, 0⟩ 0 = if negative then -(m : Int) else m := by
  change (if negative then -((m * 1 : Nat) : Int) else (m * 1 : Nat)) = _
  rw [Nat.mul_one]

theorem mantissaAt_ofInt (n : Int) : (ofInt n).mantissaAt 0 = n := by
  unfold ofInt
  rw [mantissaAt_whole]
  split
  · rename_i hn
    have := of_decide_eq_true hn
    omega
  · rename_i hn
    have := of_decide_eq_false (Bool.eq_false_of_not_eq_true hn)
    omega

theorem mantissaAt_neg (d : Decimal) (places : Nat) : d.neg.mantissaAt places = -d.mantissaAt places := by
  unfold mantissaAt neg
  cases d.negative <;> simp

theorem round?_whole (n : Int) : round? (n < 0) n.natAbs (tenTo 0) 0 =
    if n.natAbs < capacity then some (ofInt n) else none := by
  have : roundEven n.natAbs (tenTo 0) = n.natAbs := by
    simpa using roundEven_mul n.natAbs Nat.one_pos
  unfold round?
  rw [this]
  rfl

theorem add?_ofInt (a b : Int) : (ofInt a).add? (ofInt b) =
    if (a + b).natAbs < capacity then some (ofInt (a + b)) else none := by
  rw [← round?_whole]
  unfold add?
  dsimp only
  rw [show max (ofInt a).scale (ofInt b).scale = 0 from rfl, mantissaAt_ofInt, mantissaAt_ofInt]

theorem sub?_ofInt (a b : Int) : (ofInt a).sub? (ofInt b) =
    if (a - b).natAbs < capacity then some (ofInt (a - b)) else none := by
  rw [← round?_whole, Int.sub_eq_add_neg]
  unfold sub? add?
  dsimp only
  rw [show max (ofInt a).scale (ofInt b).neg.scale = 0 from rfl, mantissaAt_ofInt,
    mantissaAt_neg, mantissaAt_ofInt]

theorem mul?_ofInt (a b : Int) : (ofInt a).mul? (ofInt b) =
    if (a * b).natAbs < capacity then some (ofInt (a * b)) else none := by
  by_cases hzero : a = 0 ∨ b = 0
  · have hab : a * b = 0 := Int.mul_eq_zero.2 hzero
    have hparts : (ofInt a).mantissa = 0 ∨ (ofInt b).mantissa = 0 :=
      hzero.imp (fun h => by rw [h]; rfl) (fun h => by rw [h]; rfl)
    unfold mul?
    rw [if_pos hparts, hab]
    decide
  · obtain ⟨ha, hb⟩ := not_or.1 hzero
    have hparts : ¬ ((ofInt a).mantissa = 0 ∨ (ofInt b).mantissa = 0) := by
      rw [not_or]
      exact ⟨Int.natAbs_ne_zero.2 ha, Int.natAbs_ne_zero.2 hb⟩
    have hsign : (decide (a < 0) != decide (b < 0)) = decide (a * b < 0) := by
      have hiff : a * b < 0 ↔ (a < 0 ↔ ¬ b < 0) := by
        rw [mul_neg_iff]
        omega
      rw [Bool.eq_iff_iff, decide_eq_true_iff, hiff]
      by_cases h1 : a < 0 <;> by_cases h2 : b < 0 <;> simp [h1, h2]
    rw [← round?_whole, ← hsign, Int.natAbs_mul]
    unfold mul?
    rw [if_neg hparts]
    rfl

end Decimal

end LiveNotes.Number
