import LiveNotes.Proofs.Json.Reader
import LiveNotes.Proofs.Number.Digits
import LiveNotes.Proofs.Number.Order

/-!
What numerals look like, and that they are numbers.

* `Decimal`: a sign, digits with a point before, among or behind them, and an exponent;
* `isSome_readDecimal?_iff`, `readRadix?_eq_some_iff`: the texts that are read as numerals;
* `isNaN_ofBits`, `isNaN_neg`, `isNaN_ofRatio`: doubles that are never NaN, and with them what is read.
-/

namespace LiveNotes.Number

open Json (Digits NoDigit span_digits)

/-! ### Signs -/

/-- The sign in front of a numeral, and whether it is a minus. -/
inductive SignText : Bool → List Char → Prop where
  | absent : SignText false []
  | plus : SignText false ['+']
  | minus : SignText true ['-']

section Signs

variable {negative : Bool} {sign s : List Char}

theorem exists_takeSign (s : List Char) : ∃ sign, SignText (takeSign s).1 sign ∧ s = sign ++ (takeSign s).2 := by
  unfold takeSign
  split
  · exact ⟨_, .minus, rfl⟩
  · exact ⟨_, .plus, rfl⟩
  · exact ⟨_, .absent, rfl⟩

theorem takeSign_append (h : SignText negative sign) (hs : ∀ c ∈ s.head?, c ≠ '-' ∧ c ≠ '+') :
    takeSign (sign ++ s) = (negative, s) := by
  cases h with
  | plus | minus => rfl
  | absent =>
    rw [List.nil_append]
    unfold takeSign
    split
    · exact absurd rfl (hs '-' rfl).1
    · exact absurd rfl (hs '+' rfl).2
    · rfl

end Signs

theorem not_sign_of_digit? {radix : Nat} {c : Char} (h : (digit? radix c).isSome = true) : c ≠ '-' ∧ c ≠ '+' := by
  obtain ⟨d, hd⟩ := Option.isSome_iff_exists.1 h
  have hc := isAlphanum_of_digit? hd
  constructor
  · rintro rfl
    exact absurd hc (by decide)
  · rintro rfl
    exact absurd hc (by decide)

theorem not_sign_of_isDigit {c : Char} (h : c.isDigit = true) : c ≠ '-' ∧ c ≠ '+' :=
  not_sign_of_digit? (Option.isSome_of_eq_some (digit?_of_isDigit h))

/-! ### Decimal numerals -/

/-- Digits with a point behind or among them, if there is one, or a point and digits. -/
inductive Mantissa : List Char → Prop where
  | whole {ds : List Char} (h : Digits ds) : Mantissa ds
  | point {ds fs : List Char} (h : Digits ds) (hf : ∀ c ∈ fs, c.isDigit = true) : Mantissa (ds ++ '.' :: fs)
  | fraction {fs : List Char} (h : Digits fs) : Mantissa ('.' :: fs)

/-- A letter, a sign and digits, if there are any. -/
inductive Exponent : List Char → Prop where
  | absent : Exponent []
  | present {e : Char} {negative : Bool} {sign ds : List Char} (he : e = 'e' ∨ e = 'E')
      (hs : SignText negative sign) (h : Digits ds) : Exponent (e :: (sign ++ ds))

/-- A decimal numeral. -/
inductive DecimalText : List Char → Prop where
  | mk {negative : Bool} {sign m e : List Char} (hs : SignText negative sign) (hm : Mantissa m)
      (he : Exponent e) : DecimalText (sign ++ (m ++ e))

section Decimals

variable {c : Char} {ds m e s : List Char}

/-- What is not empty and all digits is tested for in one condition. -/
theorem digits_iff_all : Digits ds ↔ (ds.isEmpty || !ds.all Char.isDigit) = false := by
  simp [Digits]

/-- Numerals start with digits or with a point. -/
theorem Mantissa.head? (h : Mantissa m) (hc : c ∈ (m ++ s).head?) : c.isDigit = true ∨ c = '.' := by
  cases h with
  | whole h | point h =>
    obtain ⟨hne, hd⟩ := h
    obtain ⟨d, ds, rfl⟩ := List.exists_cons_of_ne_nil hne
    obtain rfl : d = c := by simpa using hc
    exact .inl (hd d List.mem_cons_self)
  | fraction =>
    right
    simpa using hc.symm

theorem Mantissa.not_sign (h : Mantissa m) : ∀ c ∈ (m ++ s).head?, c ≠ '-' ∧ c ≠ '+' := by
  intro c hc
  rcases h.head? hc with hd | rfl
  · exact not_sign_of_isDigit hd
  · decide

/-- Behind the digits stands neither a digit nor a point. -/
theorem Exponent.head? (h : Exponent e) : NoDigit e ∧ e.head? ≠ some '.' := by
  cases h with
  | absent => exact ⟨nofun, nofun⟩
  | present he =>
    rcases he with rfl | rfl <;> exact ⟨Json.noDigit_cons (by decide) _, by simp⟩

/-- The digits before and behind the point, and what is left. -/
theorem Mantissa.read (h : Mantissa m) (hs : NoDigit s ∧ s.head? ≠ some '.') :
    ∃ whole fraction t, (m ++ s).span Char.isDigit = (whole, t) ∧ takeFraction t = (fraction, s) ∧
      (whole.isEmpty && fraction.isEmpty) = false := by
  have hfraction : takeFraction s = ([], s) := by
    unfold takeFraction
    split
    · exact absurd rfl hs.2
    · rfl
  have hrest {fs : List Char} (hf : ∀ c ∈ fs, c.isDigit = true) : takeFraction ('.' :: (fs ++ s)) = (fs, s) := by
    cases fs with
    | nil =>
      rw [takeFraction, List.span_eq_takeWhile_dropWhile]
      cases s with
      | nil => rfl
      | cons c s => simp [hs.1 c rfl]
    | cons f fs => exact span_digits ⟨by simp, hf⟩ hs.1
  cases h with
  | whole h =>
    refine ⟨m, [], s, span_digits h hs.1, hfraction, ?_⟩
    simpa using h.1
  | @point ds fs h hf =>
    rw [List.append_assoc]
    refine ⟨ds, fs, _, span_digits h (Json.noDigit_cons (by decide) _), hrest hf, ?_⟩
    simp [h.1]
  | @fraction fs h =>
    refine ⟨[], fs, '.' :: (fs ++ s), rfl, hrest h.2, ?_⟩
    simp [h.1]

theorem isSome_readExponent?_iff : (readExponent? e).isSome = true ↔ Exponent e := by
  cases e with
  | nil => exact ⟨fun _ => .absent, fun _ => rfl⟩
  | cons c s =>
    rw [readExponent?]
    by_cases hc : c = 'e' ∨ c = 'E'
    · rw [if_pos hc]
      obtain ⟨sign, hsign, hs⟩ := exists_takeSign s
      by_cases hd : Digits (takeSign s).2
      · refine ⟨fun _ => ?_, fun _ => ?_⟩
        · rw [hs]
          exact .present hc hsign hd
        · simp only [digits_iff_all.1 hd]
          rfl
      · refine ⟨fun h => ?_, fun h => absurd ?_ hd⟩
        · simp only [Bool.eq_true_of_not_eq_false (mt digits_iff_all.2 hd)] at h
          cases h
        · cases h with
          | present he hs' hds =>
            rw [takeSign_append hs' fun c hc => not_sign_of_isDigit (hds.2 c (List.mem_of_mem_head? hc))]
            exact hds
    · rw [if_neg hc]
      refine ⟨nofun, fun h => ?_⟩
      cases h with
      | present he => exact absurd he hc

/-- Behind a sign, the digits before and behind the point can be read off. -/
theorem exists_mantissa {whole fraction t : List Char} (hw : s.span Char.isDigit = (whole, t))
    (hf : takeFraction t = (fraction, e)) (hne : (whole.isEmpty && fraction.isEmpty) = false) :
    ∃ m, Mantissa m ∧ s = m ++ e := by
  rw [List.span_eq_takeWhile_dropWhile] at hw
  obtain ⟨rfl, rfl⟩ := Prod.mk.inj hw
  have hwhole : ∀ c ∈ s.takeWhile Char.isDigit, c.isDigit = true := fun c hc => List.mem_takeWhile_imp hc
  have hs : s = s.takeWhile Char.isDigit ++ s.dropWhile Char.isDigit := (List.takeWhile_append_dropWhile).symm
  unfold takeFraction at hf
  split at hf
  · next t ht =>
    rw [List.span_eq_takeWhile_dropWhile] at hf
    obtain ⟨rfl, rfl⟩ := Prod.mk.inj hf
    have hfraction : ∀ c ∈ t.takeWhile Char.isDigit, c.isDigit = true := fun c hc => List.mem_takeWhile_imp hc
    have ht' : t = t.takeWhile Char.isDigit ++ t.dropWhile Char.isDigit := (List.takeWhile_append_dropWhile).symm
    by_cases hnil : s.takeWhile Char.isDigit = []
    · refine ⟨'.' :: t.takeWhile Char.isDigit, .fraction ⟨?_, hfraction⟩, ?_⟩
      · simpa [hnil] using hne
      · rw [hs, hnil, ht, List.nil_append, List.cons_append, ← ht']
    · refine ⟨_, .point ⟨hnil, hwhole⟩ hfraction, ?_⟩
      rw [List.append_assoc, List.cons_append, ← ht', ← ht]
      exact hs
  · obtain ⟨rfl, rfl⟩ := Prod.mk.inj hf
    refine ⟨_, .whole ⟨?_, hwhole⟩, hs⟩
    simpa using hne

/-- The texts that are read as decimal numerals are those of the grammar. -/
theorem isSome_readDecimal?_iff : (readDecimal? s).isSome = true ↔ DecimalText s := by
  constructor
  · intro h
    obtain ⟨sign, hsign, hs⟩ := exists_takeSign s
    unfold readDecimal? at h
    dsimp only at h
    split at h
    · cases h
    · next hne =>
      rw [Option.isSome_map, isSome_readExponent?_iff] at h
      obtain ⟨m, hm, hrest⟩ := exists_mantissa rfl rfl (Bool.eq_false_of_not_eq_true hne)
      rw [hs, hrest]
      exact .mk hsign hm h
  · rintro @⟨negative, sign, m, e, hs, hm, he⟩
    obtain ⟨whole, fraction, t, hw, hf, hne⟩ := hm.read he.head?
    have hsign : takeSign (sign ++ (m ++ e)) = (negative, m ++ e) := takeSign_append hs hm.not_sign
    unfold readDecimal?
    simp only [hsign, hw, hf, hne]
    rw [if_neg Bool.false_ne_true, Option.isSome_map]
    exact isSome_readExponent?_iff.2 he

end Decimals

/-! ### Numerals of a radix -/

/-- The texts that are read as numerals of a radix: digits behind a sign, if there is one. -/
theorem readRadix?_eq_some_iff {radix : Nat} {s : List Char} {n : Int} : readRadix? radix s = some n ↔
    ∃ negative sign ds, ∃ k : Nat, SignText negative sign ∧ DigitsOf radix ds k ∧ s = sign ++ ds ∧
      n = if negative then -(k : Int) else k := by
  constructor
  · intro h
    obtain ⟨sign, hsign, hs⟩ := exists_takeSign s
    unfold readRadix? at h
    dsimp only at h
    split at h
    · cases h
    · next hd =>
      have hds : (takeSign s).2 ≠ [] ∧ ∀ c ∈ (takeSign s).2, (digit? radix c).isSome = true := by
        simpa [Option.isSome_iff_ne_none] using hd
      exact ⟨_, sign, _, _, hsign, ⟨hds.1, hds.2, rfl⟩, hs, (Option.some.inj h).symm⟩
  · rintro ⟨negative, sign, ds, k, hsign, ⟨hne, hd, rfl⟩, rfl, rfl⟩
    have hs : takeSign (sign ++ ds) = (negative, ds) := by
      refine takeSign_append hsign ?_
      intro c hc
      exact not_sign_of_digit? (hd c (List.mem_of_mem_head? hc))
    have htest : (ds.isEmpty || !ds.all fun c => (digit? radix c).isSome) = false := by
      simpa [hne] using hd
    unfold readRadix?
    simp only [hs, htest]
    rfl

/-! ### Doubles that are numbers -/

namespace Double

open Float.Model (UnpackedFloat Format)
open Float.Model.UnpackedFloat (isNaNBits unpackExponent unpackMantissa)

/-- The bits of NaN have a full exponent. -/
theorem isNaNBits_of_ne {b : BitVec 64} (he : @unpackExponent Format.binary64 b ≠ -1#_) :
    @isNaNBits Format.binary64 b = false :=
  decide_eq_false fun h => he h.1

theorem isNaN_unpack (b : BitVec 64) :
    (UnpackedFloat.unpack Format.binary64 b).isNaN = @isNaNBits Format.binary64 b := by
  unfold UnpackedFloat.unpack
  dsimp only
  split
  · next he =>
    unfold isNaNBits
    split
    · next hm => simp [UnpackedFloat.isNaN, hm]
    · next hm => simp [UnpackedFloat.isNaN, he, hm]
  · next he =>
    rw [isNaNBits_of_ne he]
    split
    · split <;> rfl
    · rfl

/-- Packing keeps what is a number and what is none. -/
theorem isNaN_unpack_pack (f : UnpackedFloat) :
    (UnpackedFloat.unpack Format.binary64 (f.pack Format.binary64)).isNaN = f.isNaN := by
  cases f with
  | notANumber => rfl
  | infinity s => cases s <;> rfl
  | zero s => cases s <;> rfl
  | finite s m e hm =>
    unfold UnpackedFloat.pack
    dsimp only
    split
    · cases s <;> rfl
    · next he =>
      have hfield : (e + Format.binary64.exponentBias + Format.binary64.mantissaBitsWithoutImplicit).toNat + 1 < 2048 :=
        Nat.lt_of_not_le he
      rw [isNaN_unpack]
      refine isNaNBits_of_ne ?_
      split
      · rw [UnpackedFloat.unpackExponent_packComponents]
        intro h
        have := congrArg BitVec.toNat h
        rw [BitVec.toNat_ofNat] at this
        change _ % 2048 = 2047 at this
        omega
      · rw [UnpackedFloat.unpackExponent_packComponents]
        decide

theorem isNaN_neg (x : Float) : (-x).isNaN = x.isNaN := by
  change (UnpackedFloat.unpack Format.binary64 (x.toModel.unpack.neg.pack Format.binary64)).isNaN = _
  rw [isNaN_unpack_pack]
  change x.toModel.unpack.neg.isNaN = x.toModel.unpack.isNaN
  cases x.toModel.unpack <;> rfl

/-- The bits up to those of infinity are numbers. -/
theorem isNaN_ofBits {u : UInt64} (hu : u.toNat ≤ 2047 * 2 ^ 52) : (Float.ofBits u).isNaN = false := by
  change (UnpackedFloat.unpack Format.binary64
    ((UnpackedFloat.unpack Format.binary64 u.toBitVec).pack Format.binary64)).isNaN = _
  rw [isNaN_unpack_pack, isNaN_unpack]
  refine decide_eq_false ?_
  rintro ⟨he, hm⟩
  -- a full exponent takes all of the bits up to infinity, so that nothing is left for a mantissa
  have hfield := congrArg BitVec.toNat he
  rw [toNat_unpackExponent] at hfield
  change u.toNat / 2 ^ 52 % 2 ^ 11 = 2047 at hfield
  refine hm (BitVec.eq_of_toNat_eq ?_)
  rw [toNat_unpackMantissa]
  change u.toNat % 2 ^ 52 = 0
  omega

/-- Bits that were rounded are those of a finite double, or infinity takes their place. -/
theorem isNaN_ofRounded (bits : Nat) : (if 2047 * twoTo 52 ≤ bits then Float.ofBits 0x7FF0000000000000
    else Float.ofBits (UInt64.ofNat bits)).isNaN = false := by
  have h52 : twoTo 52 = 2 ^ 52 := rfl
  by_cases h : 2047 * twoTo 52 ≤ bits
  · rw [if_pos h]
    decide
  · rw [if_neg h]
    refine isNaN_ofBits ?_
    rw [UInt64.toNat_ofNat_of_lt' (by change _ < 2 ^ 64; omega)]
    omega

theorem isNaN_ofRatio (num den : Nat) : (ofRatio num den).isNaN = false := by
  unfold ofRatio
  by_cases h : num = 0
  · rw [if_pos h]
    decide
  · rw [if_neg h]
    exact isNaN_ofRounded _

theorem isNaN_ofInteger (n : Int64) : (ofInteger n).isNaN = false := by
  unfold ofInteger
  dsimp only
  split
  · rw [isNaN_neg, isNaN_ofRatio]
  · exact isNaN_ofRatio _ _

theorem isNaN_ofDecimal (digits : Nat) (exponent : Int) : (ofDecimal digits exponent).isNaN = false := by
  unfold ofDecimal
  dsimp only
  split_ifs
  · decide
  · decide
  · decide
  · exact isNaN_ofRatio _ _
  · exact isNaN_ofRatio _ _

end Double

/-- What is read as a numeral is a number. -/
theorem isNaN_readDecimal? {s : List Char} {x : Float} (h : readDecimal? s = some x) : x.isNaN = false := by
  unfold readDecimal? at h
  dsimp only at h
  split at h
  · cases h
  · obtain ⟨e, -, rfl⟩ := Option.map_eq_some_iff.1 h
    split
    · rw [Double.isNaN_neg, Double.isNaN_ofDecimal]
    · exact Double.isNaN_ofDecimal _ _

end LiveNotes.Number
