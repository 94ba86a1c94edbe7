import LiveNotes.Proofs.Number.Whole

/-!
Finite doubles by their bits, the smallest ones among them, whose mantissas have fewer than 53 bits: the bits
are those of the number without its sign, and a minus changes the sign only.

* `FiniteParts`: the mantissas and exponents of finite doubles;
* `finiteParts_of_decode?`: the bits of a double that was taken apart;
* `eq_of_decode?`: a finite double is put together from its parts.
-/

namespace LiveNotes.Number

open Float.Model (UnpackedFloat Format)
open Float.Model.UnpackedFloat (Sign unpackMantissa unpackExponent unpackSign packComponents)

/-- The range of the mantissas and exponents of finite doubles. Only with the least exponent does a mantissa
have fewer than 53 bits. -/
structure FiniteParts (m : Nat) (e : Int) : Prop where
  mantissa_lt : m < 2 ^ 53
  le_exponent : -1074 ≤ e
  exponent_le : e ≤ 971
  full : 2 ^ 52 ≤ m ∨ e = -1074

section Parts

variable {negative : Bool} {m : Nat} {e : Int} {b c : BitVec 64}

theorem neg_signOf (negative : Bool) : -signOf negative = signOf (!negative) := by
  cases negative <;> rfl

/-- What bits with a small mantissa stand for. -/
theorem unpack_small (h : m < 2 ^ 52) (hb : b.toNat = partsBits negative m (-1074)) :
    UnpackedFloat.unpack Format.binary64 b =
      if hm : m = 0 then .zero (signOf negative)
      else .finite (signOf negative) m (-1074) (Nat.pos_of_ne_zero hm) := by
  have hbits : b.toNat = negative.toNat * 2 ^ 63 + m := by
    rw [hb]
    change negative.toNat * 2 ^ 63 + (0 * 2 ^ 52 + m) = _
    rw [Nat.zero_mul, Nat.zero_add]
  have hlt := Bool.toNat_lt negative
  have hsign := toNat_unpackSign b
  have hexponent := toNat_unpackExponent b
  have hmantissa := toNat_unpackMantissa b
  rw [hbits] at hsign hexponent hmantissa
  have hsign' : Sign.ofBitVec (@unpackSign Format.binary64 b) = signOf negative := ofBitVec_eq_signOf (by omega)
  have hexponent' : @unpackExponent Format.binary64 b = 0#_ := BitVec.eq_of_toNat_eq (by
    rw [hexponent]
    change _ = 0
    omega)
  have hmantissa' : (@unpackMantissa Format.binary64 b).toNat = m := by omega
  have hzero : @unpackMantissa Format.binary64 b = 0#_ ↔ m = 0 := by
    rw [← BitVec.toNat_inj, hmantissa']
    exact Iff.rfl
  unfold UnpackedFloat.unpack
  dsimp only
  rw [if_neg (by rw [hexponent']; decide), if_pos hexponent', hsign']
  by_cases hm : m = 0
  · rw [dif_pos (hzero.2 hm), dif_pos hm]
  · rw [dif_neg (mt hzero.1 hm), dif_neg hm, hexponent']
    simp only [UnpackedFloat.finite.injEq, hmantissa', true_and]
    decide

/-- What a small mantissa is packed into. -/
theorem toNat_pack_small (hpos : 0 < m) (h : m < 2 ^ 52) :
    (UnpackedFloat.pack Format.binary64 (.finite (signOf negative) m (-1074) hpos)).toNat =
      partsBits negative m (-1074) := by
  have hlog : m.log2 < 52 := (Nat.log2_lt hpos.ne').2 h
  have hbits : ¬ m.log2 + 1 = Format.binary64.mantissaBits := by
    change ¬ m.log2 + 1 = 53
    omega
  unfold UnpackedFloat.pack partsBits
  dsimp only
  rw [if_neg (by decide), if_neg hbits, toNat_packComponents, BitVec.toNat_ofNat]
  change _ + (0 * 2 ^ 52 + m % 2 ^ 52) = _
  omega

/-- The bits of a finite double come back. -/
theorem FiniteParts.pack_unpack (h : FiniteParts m e) (hb : b.toNat = partsBits negative m e) :
    (UnpackedFloat.unpack Format.binary64 b).pack Format.binary64 = b := by
  obtain ⟨hlt, hle, hle', hfull⟩ := h
  refine BitVec.eq_of_toNat_eq ?_
  by_cases hm : 2 ^ 52 ≤ m
  · have hparts : FullParts m e := ⟨hm, hlt, hle, hle'⟩
    rw [unpack_partsBits hparts hb, toNat_pack hparts, hb]
  · obtain rfl : e = -1074 := hfull.resolve_left hm
    rw [unpack_small (by omega) hb]
    by_cases h0 : m = 0
    · rw [dif_pos h0, hb, h0]
      change (packComponents Format.binary64 (signOf negative) 0 0).toNat = _
      rw [toNat_packComponents]
      rfl
    · rw [dif_neg h0, toNat_pack_small (Nat.pos_of_ne_zero h0) (by omega), hb]

/-- A minus changes the sign and nothing else. -/
theorem FiniteParts.neg_unpack (h : FiniteParts m e) (hb : b.toNat = partsBits negative m e)
    (hc : c.toNat = partsBits (!negative) m e) :
    (UnpackedFloat.unpack Format.binary64 b).neg = UnpackedFloat.unpack Format.binary64 c := by
  obtain ⟨hlt, hle, hle', hfull⟩ := h
  by_cases hm : 2 ^ 52 ≤ m
  · have hparts : FullParts m e := ⟨hm, hlt, hle, hle'⟩
    rw [unpack_partsBits hparts hb, unpack_partsBits hparts hc, UnpackedFloat.neg, neg_signOf]
  · obtain rfl : e = -1074 := hfull.resolve_left hm
    rw [unpack_small (by omega) hb, unpack_small (by omega) hc]
    by_cases h0 : m = 0
    · rw [dif_pos h0, dif_pos h0, UnpackedFloat.neg, neg_signOf]
    · rw [dif_neg h0, dif_neg h0, UnpackedFloat.neg, neg_signOf]

theorem FiniteParts.bits_lt (h : FiniteParts m e) (negative : Bool) : partsBits negative m e < 2 ^ 64 := by
  obtain ⟨hlt, hle, hle', -⟩ := h
  have := Bool.toNat_lt negative
  unfold partsBits
  omega

end Parts

namespace Double

/-- The double with a sign, a mantissa and an exponent. -/
def ofParts (negative : Bool) (m : Nat) (e : Int) : Float :=
  Float.ofBits (UInt64.ofNat (partsBits negative m e))

variable {negative : Bool} {m : Nat} {e : Int} {x : Float} {d : Dyadic}

theorem toNat_toBits_ofParts (h : FiniteParts m e) : (ofParts negative m e).toBits.toNat = partsBits negative m e := by
  have hbits : (UInt64.ofNat (partsBits negative m e)).toNat = partsBits negative m e :=
    UInt64.toNat_ofNat_of_lt (h.bits_lt negative)
  change ((UnpackedFloat.unpack Format.binary64 (UInt64.ofNat (partsBits negative m e)).toBitVec).pack
    Format.binary64).toNat = _
  rw [h.pack_unpack (b := (UInt64.ofNat (partsBits negative m e)).toBitVec) hbits]
  exact hbits

theorem eq_of_toBits {x y : Float} (h : x.toBits.toNat = y.toBits.toNat) : x = y := by
  obtain ⟨a, ha⟩ := x
  obtain ⟨b, hb⟩ := y
  have : a = b := UInt64.toNat_inj.1 h
  subst this
  rfl

theorem neg_ofParts (h : FiniteParts m e) : -ofParts negative m e = ofParts (!negative) m e := by
  have hb : (ofParts negative m e).toBits.toBitVec.toNat = partsBits negative m e := toNat_toBits_ofParts h
  have hc : (ofParts (!negative) m e).toBits.toBitVec.toNat = partsBits (!negative) m e := toNat_toBits_ofParts h
  refine eq_of_toBits ?_
  change ((UnpackedFloat.unpack Format.binary64 (ofParts negative m e).toBits.toBitVec).neg.pack
    Format.binary64).toNat = _
  rw [h.neg_unpack hb hc, h.pack_unpack hc]
  rfl

/-- The bits of a double that was taken apart. -/
theorem finiteParts_of_decode? (h : decode? x = some d) :
    FiniteParts d.mantissa d.exponent ∧ x.toBits.toNat = partsBits d.negative d.mantissa d.exponent := by
  have hbits : x.toBits.toNat < 2 ^ 64 := x.toBits.toNat_lt
  have h11 : twoTo 11 = 2 ^ 11 := rfl
  have h52 : twoTo 52 = 2 ^ 52 := rfl
  have h63 : twoTo 63 = 2 ^ 63 := rfl
  unfold decode? at h
  dsimp only at h
  rw [h11, h52, h63] at h
  have hsign : (decide (2 ^ 63 ≤ x.toBits.toNat)).toNat = x.toBits.toNat / 2 ^ 63 := by
    by_cases hs : 2 ^ 63 ≤ x.toBits.toNat
    · rw [decide_eq_true hs]
      change 1 = _
      omega
    · rw [decide_eq_false hs]
      change 0 = _
      omega
  split at h
  · cases h
  · next hfinite =>
    split at h
    · next hsmall =>
      cases h
      refine ⟨⟨?_, ?_, ?_, .inr rfl⟩, ?_⟩
      · dsimp only
        omega
      · exact Int.le_refl _
      · dsimp only
        decide
      · dsimp only [partsBits]
        rw [hsign]
        omega
    · next hfull =>
      cases h
      refine ⟨⟨?_, ?_, ?_, .inl (Nat.le_add_right _ _)⟩, ?_⟩
      · dsimp only
        omega
      · dsimp only
        omega
      · dsimp only
        omega
      · dsimp only [partsBits]
        rw [hsign]
        omega

/-- A finite double is put together from its parts. -/
theorem eq_of_decode? (h : decode? x = some d) : x = ofParts d.negative d.mantissa d.exponent := by
  obtain ⟨hparts, hbits⟩ := finiteParts_of_decode? h
  refine eq_of_toBits ?_
  rw [hbits, toNat_toBits_ofParts hparts]

end Double

end LiveNotes.Number
