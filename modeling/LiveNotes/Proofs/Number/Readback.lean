import LiveNotes.Number.Text
import LiveNotes.Proofs.Json.Writer
import LiveNotes.Proofs.Number.Numerals
import LiveNotes.Proofs.Number.Order
import LiveNotes.Proofs.Number.Shortest

/-!
Doubles are read again from their texts: whichever way the fewest digits are written, with a point among them
or with a power of ten, the numeral that is read is the one that was written, and the double is nearest to it.

* `Written`: the texts of a numeral; `written_positional` and `written_scientific`: they are written so;
* `Written.read`: what is read from such a text;
* `readDecimal?_of_written`: a double is read from the text of its digits;
* `readDecimal?_plain`, `readDecimal?_labelled`, `readDecimal?_keyed`: the texts of doubles;
* `beq_of_keyed`: doubles of one name are the same number.
-/

namespace LiveNotes.Number

open Float.Model (UnpackedFloat Format)
open Float.Model.UnpackedFloat (unpackExponent)
open Json (Digits NoDigit span_digits digits_toDigits)

/-! ### Digits with a point -/

/-- Digits and a point behind them, if digits follow the point. -/
def pointed (front back : List Char) : List Char := if back.isEmpty then front else front ++ '.' :: back

/-- The texts of a numeral: digits, perhaps with a point among them, and perhaps a power of ten. -/
inductive Written (n : Numeral) : List Char → Prop where
  | mk {front back power : List Char} {p : Int} (hf : Digits front) (hb : ∀ c ∈ back, c.isDigit = true)
      (hp : readExponent? power = some p)
      (hvalue : (digitsValue (front ++ back) : ℚ) * 10 ^ (p - back.length) = n.value) :
      Written n (pointed front back ++ power)

section Pointed

variable {front back power s : List Char}

/-- The digits before and behind the point are read. -/
theorem read_pointed (hf : Digits front) (hb : ∀ c ∈ back, c.isDigit = true)
    (hs : NoDigit s ∧ s.head? ≠ some '.') :
    ∃ t, (pointed front back ++ s).span Char.isDigit = (front, t) ∧ takeFraction t = (back, s) := by
  cases back with
  | nil =>
    refine ⟨s, span_digits hf hs.1, ?_⟩
    unfold takeFraction
    split
    · exact absurd rfl hs.2
    · rfl
  | cons b back =>
    refine ⟨'.' :: (b :: back ++ s), ?_, span_digits ⟨List.cons_ne_nil _ _, hb⟩ hs.1⟩
    have hcut : pointed front (b :: back) ++ s = front ++ '.' :: (b :: back ++ s) := List.append_assoc ..
    rw [hcut]
    exact span_digits hf (Json.noDigit_cons (by decide) _)

theorem head?_pointed (hf : Digits front) : ∀ c ∈ (pointed front back ++ s).head?, c.isDigit = true := by
  obtain ⟨c, front, rfl⟩ := List.exists_cons_of_ne_nil hf.1
  intro d hd
  unfold pointed at hd
  split at hd
  · cases hd
    exact hf.2 _ List.mem_cons_self
  · cases hd
    exact hf.2 _ List.mem_cons_self

/-- From the text of a numeral a decimal number is read that is the same number. -/
theorem Written.read {n : Numeral} (h : Written n s) (negative : Bool) : ∃ (digits : Nat) (exponent : Int),
    (digits * 10 ^ exponent : ℚ) = n.value ∧ readDecimal? (signed negative s).toList =
      some (if negative then -Double.ofDecimal digits exponent else Double.ofDecimal digits exponent) := by
  obtain @⟨front, back, power, p, hf, hb, hp, hvalue⟩ := h
  refine ⟨_, _, hvalue, ?_⟩
  have hpower : Exponent power := isSome_readExponent?_iff.1 (Option.isSome_of_eq_some hp)
  obtain ⟨t, hspan, hfraction⟩ := read_pointed hf hb hpower.head?
  have hsign : takeSign (signed negative (pointed front back ++ power)).toList =
      (negative, pointed front back ++ power) := by
    have hstart : ∀ c ∈ (pointed front back ++ power).head?, c ≠ '-' ∧ c ≠ '+' :=
      fun c hc => not_sign_of_isDigit (head?_pointed hf c hc)
    unfold signed
    rw [String.toList_ofList]
    cases negative with
    | true => exact takeSign_append .minus hstart
    | false => exact takeSign_append .absent hstart
  have hne : (front.isEmpty && back.isEmpty) = false := by simp [hf.1]
  unfold readDecimal?
  simp only [hsign, hspan, hfraction, hne, hp]
  rfl

end Pointed

/-! ### How numerals are written -/

theorem digitsValue_append_zeros (ds : List Char) (k : Nat) : digitsValue (ds ++ zeros k) = 10 ^ k * digitsValue ds := by
  unfold digitsValue zeros
  rw [Nat.ofDigitChars_append, Nat.ofDigitChars_replicate_zero]

theorem digitsValue_zeros_append (k : Nat) (ds : List Char) : digitsValue (zeros k ++ ds) = digitsValue ds := by
  unfold digitsValue zeros
  rw [Nat.ofDigitChars_append, Nat.ofDigitChars_replicate_zero, Nat.mul_zero]

theorem isDigit_of_mem_zeros {c : Char} {k : Nat} (h : c ∈ zeros k) : c.isDigit = true := by
  rw [List.eq_of_mem_replicate h]
  rfl

/-- A text of the digits of a numeral, with zeros around them, is one of the numeral if the right number of them
stands behind the point; more zeros at the end do not matter. -/
theorem Written.of_cut {n : Numeral} {front back : List Char} {a b : Nat} (k : Nat) (hf : front ≠ [])
    (hcut : front ++ back = zeros a ++ (decimalDigits n.digits ++ zeros b))
    (hlength : (back.length : Int) = b - n.exponent) :
    Written n (pointed front (back ++ zeros k)) := by
  have hdigits : ∀ c ∈ front ++ back, c.isDigit = true := by
    intro c hc
    rw [hcut, List.mem_append, List.mem_append] at hc
    rcases hc with hc | hc | hc
    · exact isDigit_of_mem_zeros hc
    · exact (digits_toDigits n.digits).2 c hc
    · exact isDigit_of_mem_zeros hc
  have hback : ∀ c ∈ back ++ zeros k, c.isDigit = true := by
    intro c hc
    rcases List.mem_append.1 hc with hc | hc
    · exact hdigits c (List.mem_append_right _ hc)
    · exact isDigit_of_mem_zeros hc
  have hvalue : digitsValue (front ++ (back ++ zeros k)) = 10 ^ k * (10 ^ b * n.digits) := by
    rw [← List.append_assoc, hcut, digitsValue_append_zeros, digitsValue_zeros_append, digitsValue_append_zeros]
    unfold digitsValue decimalDigits
    rw [Nat.ofDigitChars_ten_toDigits]
  have hplaces : ((back ++ zeros k).length : Int) = b - n.exponent + k := by
    rw [List.length_append, zeros, List.length_replicate, Nat.cast_add, hlength]
  rw [← List.append_nil (pointed front _)]
  refine .mk (p := 0) ⟨hf, fun c hc => hdigits c (List.mem_append_left _ hc)⟩ hback rfl ?_
  rw [hvalue, hplaces, Numeral.value, show (0 : Int) - (b - n.exponent + k) = n.exponent - (b : Int) - (k : Int) by ring,
    zpow_sub₀ (by norm_num), zpow_sub₀ (by norm_num), zpow_natCast, zpow_natCast]
  push_cast
  field_simp

/-- A numeral in positions. -/
theorem written_positional (n : Numeral) (places : Nat) : Written n (positional n places) := by
  have hne : decimalDigits n.digits ≠ [] := (digits_toDigits n.digits).1
  have hlength : 0 < (decimalDigits n.digits).length := List.length_pos_iff.2 hne
  unfold positional
  dsimp only
  by_cases hexponent : 0 ≤ n.exponent
  · rw [if_pos hexponent]
    refine Written.of_cut (a := 0) (b := n.exponent.toNat) _ (by simp [hne]) (List.append_nil _) ?_
    simp only [List.length_nil]
    omega
  · rw [if_neg hexponent]
    by_cases hwhole : 0 < ((decimalDigits n.digits).length : Int) + n.exponent
    · rw [if_pos hwhole]
      refine Written.of_cut (a := 0) (b := 0) _ ?_ ?_ ?_
      · dsimp only
        rw [Ne, List.take_eq_nil_iff, not_or]
        exact ⟨by omega, hne⟩
      · dsimp only
        rw [List.take_append_drop]
        exact (List.append_nil _).symm
      · dsimp only
        rw [List.length_drop]
        omega
    · rw [if_neg hwhole]
      refine Written.of_cut (a := 1 + (-(((decimalDigits n.digits).length : Int) + n.exponent)).toNat) (b := 0) _
        (List.cons_ne_nil _ _) ?_ ?_
      · dsimp only
        rw [Nat.add_comm 1]
        simp [zeros, List.replicate_succ]
      · simp only [List.length_append, zeros, List.length_replicate]
        omega

/-- The powers that a numeral can have are read. -/
theorem readExponent?_int {p : Int} (h : p.natAbs ≤ 1000000) : readExponent? ('e' :: (toString p).toList) = some p := by
  have hdigits : Digits (Nat.toDigits 10 p.natAbs) := digits_toDigits _
  have hstart : ∀ c ∈ (Nat.toDigits 10 p.natAbs).head?, c ≠ '-' ∧ c ≠ '+' :=
    fun c hc => not_sign_of_isDigit (hdigits.2 c (List.mem_of_mem_head? hc))
  have hsign : takeSign (toString p).toList = (decide (p < 0), Nat.toDigits 10 p.natAbs) := by
    change takeSign p.repr.toList = _
    rw [intRepr_toList]
    by_cases hp : p < 0
    · rw [decide_eq_true hp]
      exact takeSign_append .minus hstart
    · rw [decide_eq_false hp]
      exact takeSign_append .absent hstart
  have hvalue : digitsValue (Nat.toDigits 10 p.natAbs) = p.natAbs := Nat.ofDigitChars_ten_toDigits
  rw [readExponent?, if_pos (.inl rfl), hsign]
  dsimp only
  rw [if_neg (Bool.eq_false_iff.1 (digits_iff_all.1 hdigits)), hvalue]
  congr 1
  simp only [decide_eq_true_eq]
  split <;> omega

/-- A numeral with one digit before the point and a power of ten. -/
theorem written_scientific {n : Numeral} (h : n.Short) : Written n (scientific n) := by
  have hlength := h.length_add_le
  have hlow := h.low
  have hdigits : Digits (decimalDigits n.digits) := digits_toDigits n.digits
  have hvalue : digitsValue (decimalDigits n.digits) = n.digits := Nat.ofDigitChars_ten_toDigits
  have hpower : readExponent? ('e' :: (toString ((decimalDigits n.digits).length - 1 + n.exponent)).toList) =
      some ((decimalDigits n.digits).length - 1 + n.exponent) := readExponent?_int (by omega)
  unfold scientific
  dsimp only
  generalize decimalDigits n.digits = ds at *
  obtain ⟨d, rest, rfl⟩ := List.exists_cons_of_ne_nil hdigits.1
  have hwritten : Written n (pointed [d] rest ++
      ('e' :: (toString (((d :: rest).length : Int) - 1 + n.exponent)).toList)) := by
    refine .mk ⟨List.cons_ne_nil _ _, List.forall_mem_singleton.2 (hdigits.2 d List.mem_cons_self)⟩
      (fun c hc => hdigits.2 c (List.mem_cons_of_mem _ hc)) hpower ?_
    rw [List.singleton_append, hvalue, Numeral.value, List.length_cons, Nat.cast_succ, add_sub_cancel_right,
      add_sub_cancel_left]
  cases rest with
  | nil => exact hwritten
  | cons c rest => exact hwritten

/-! ### The texts of doubles -/

section Doubles

variable {x : Float} {d : Dyadic} {s : List Char}

theorem ofDecimal_zero {digits : Nat} {exponent : Int} (h : (digits * 10 ^ exponent : ℚ) = 0) :
    Double.ofDecimal digits exponent = Double.ofParts false 0 (-1074) := by
  have hdigits : digits = 0 := by
    have hp : (10 : ℚ) ^ exponent ≠ 0 := by positivity
    exact_mod_cast (mul_eq_zero.1 h).resolve_right hp
  have hzero : (0.0 : Float) = Double.ofParts false 0 (-1074) := rfl
  unfold Double.ofDecimal
  rw [hdigits]
  exact hzero

/-- A double is read from every text of the fewest digits that read back. -/
theorem readDecimal?_of_written (tie : Tie) (h : Double.decode? x = some d) (hs : Written (numeralOf tie d) s) :
    readDecimal? (signed d.negative s).toList = some x := by
  obtain ⟨digits, exponent, hvalue, hread⟩ := hs.read d.negative
  have hparts := (Double.finiteParts_of_decode? h).1
  have hsize : Double.ofDecimal digits exponent = Double.ofParts false d.mantissa d.exponent := by
    by_cases hm : d.mantissa = 0
    · have hexponent : d.exponent = -1074 := hparts.full.resolve_left (by omega)
      have hzero : (numeralOf tie d).value = 0 := by
        rw [numeralOf, if_pos hm, Numeral.value, Nat.cast_zero, zero_mul]
      rw [ofDecimal_zero (hvalue.trans hzero), hm, hexponent]
    · have hpos : 0 < d.mantissa := Nat.pos_of_ne_zero hm
      refine Double.ofDecimal_of_nearest hparts hpos ?_
      rw [hvalue, numeralOf, if_neg hm]
      exact Shortest.nearest_digits tie hparts hpos
  rw [hread, hsize, Double.neg_ofParts hparts]
  refine congrArg some (Eq.trans ?_ (Double.eq_of_decode? h).symm)
  cases d.negative <;> rfl

/-- The positional text of a finite double is read as the double. -/
theorem readDecimal?_plain (h : Double.decode? x = some d) : readDecimal? (plain x).toList = some x := by
  unfold plain textBy
  rw [h]
  exact readDecimal?_of_written .larger h (written_positional _ _)

/-- The text of a finite double in a message is read as the double. -/
theorem readDecimal?_labelled (h : Double.decode? x = some d) : readDecimal? (labelled x).toList = some x := by
  unfold labelled textBy
  rw [h]
  refine readDecimal?_of_written .larger h ?_
  split
  · exact written_scientific (short_numeralOf .larger h)
  · exact written_positional _ _

/-- The name that a finite double becomes is read as the double. -/
theorem readDecimal?_keyed (h : Double.decode? x = some d) : readDecimal? (keyed x).toList = some x := by
  unfold keyed textBy
  rw [h]
  refine readDecimal?_of_written .even h ?_
  split
  · exact written_scientific (short_numeralOf .even h)
  · exact written_positional _ _

/-! ### Names -/

theorem point_mem_positional (n : Numeral) {places : Nat} (h : 0 < places) : '.' ∈ positional n places := by
  unfold positional
  dsimp only
  generalize (if 0 ≤ n.exponent then (decimalDigits n.digits ++ zeros n.exponent.toNat, ([] : List Char)) else _) = cut
  have hback : cut.2 ++ zeros (places - cut.2.length) ≠ [] := by
    intro hnil
    have hlength := congrArg List.length hnil
    rw [List.length_append, zeros, List.length_replicate, List.length_nil] at hlength
    omega
  rw [if_neg (mt List.isEmpty_iff.1 hback)]
  exact List.mem_append_right _ List.mem_cons_self

theorem letter_mem_scientific (n : Numeral) : 'e' ∈ scientific n :=
  List.mem_append_right _ List.mem_cons_self

theorem mem_signed {c : Char} (negative : Bool) (h : c ∈ s) : c ∈ (signed negative s).toList := by
  unfold signed
  rw [String.toList_ofList]
  cases negative with
  | true => exact List.mem_cons_of_mem _ h
  | false => exact h

/-- The names of infinity and of no number. -/
theorem keyed_of_decode?_eq_none (h : Double.decode? x = none) :
    keyed x = if x.isNaN then ".nan" else if x < 0.0 then "-.inf" else ".inf" := by
  unfold keyed textBy
  rw [h]
  rfl

/-- A name of a double has a point or the letter before an exponent. -/
theorem exists_mark_keyed (x : Float) : ∃ c ∈ (keyed x).toList, c.isDigit = false ∧ c ≠ '-' := by
  cases h : Double.decode? x with
  | none =>
    refine ⟨'.', ?_, by decide⟩
    rw [keyed_of_decode?_eq_none h]
    split
    · decide
    · split <;> decide
  | some d =>
    unfold keyed textBy
    rw [h]
    dsimp only
    split
    · exact ⟨'e', mem_signed _ (letter_mem_scientific _), by decide⟩
    · exact ⟨'.', mem_signed _ (point_mem_positional _ Nat.one_pos), by decide⟩

theorem readDecimal?_keyed_of_none (h : Double.decode? x = none) : readDecimal? (keyed x).toList = none := by
  rw [keyed_of_decode?_eq_none h]
  split
  · decide
  · split <;> decide

/-- A text that is no numeral is no name of a double, the three for infinity and no number apart. -/
theorem keyed_ne {t : String} (ht : readDecimal? t.toList = none) (hname : t ≠ ".nan" ∧ t ≠ "-.inf" ∧ t ≠ ".inf") :
    keyed x ≠ t := by
  rintro rfl
  cases h : Double.decode? x with
  | some d =>
    rw [readDecimal?_keyed h] at ht
    cases ht
  | none =>
    rw [keyed_of_decode?_eq_none h] at hname
    obtain ⟨hnan, hlow, hhigh⟩ := hname
    split at hnan
    · exact hnan rfl
    · next hnan' =>
      rw [if_neg hnan'] at hlow hhigh
      split at hlow
      · exact hlow rfl
      · next hlow' =>
        rw [if_neg hlow'] at hhigh
        exact hhigh rfl

/-- What is neither finite nor NaN is infinite. -/
theorem exists_infinity (h : Double.decode? x = none) (hn : x.isNaN = false) : ∃ s, x.toModel.unpack = .infinity s := by
  have hfield : x.toBits.toNat / 2 ^ 52 % 2 ^ 11 = 2047 := by
    unfold Double.decode? at h
    dsimp only at h
    split at h
    · assumption
    · split at h <;> cases h
  have hexponent : @unpackExponent Format.binary64 x.toBits.toBitVec = -1#_ :=
    BitVec.eq_of_toNat_eq ((toNat_unpackExponent _).trans hfield)
  change (UnpackedFloat.unpack Format.binary64 x.toBits.toBitVec).isNaN = false at hn
  change ∃ s, UnpackedFloat.unpack Format.binary64 x.toBits.toBitVec = .infinity s
  unfold UnpackedFloat.unpack at hn ⊢
  dsimp only at hn ⊢
  rw [if_pos hexponent] at hn ⊢
  split
  · exact ⟨_, rfl⟩
  · next hmantissa =>
    rw [if_neg hmantissa] at hn
    cases hn

theorem lt_zero_of_infinity {s : UnpackedFloat.Sign} (h : x.toModel.unpack = .infinity s) :
    x < 0.0 ↔ s = .negative := by
  have hzero : (0.0 : Float).toModel.unpack = .zero .positive := rfl
  rw [lt_iff_compare, h, hzero]
  cases s with
  | negative => exact iff_of_true rfl rfl
  | positive => exact iff_of_false nofun nofun

/-- Two doubles that are not finite and have one name are the same number. -/
theorem beq_of_keyed_of_none {y : Float} (hx : Double.decode? x = none) (hy : Double.decode? y = none)
    (h : keyed x = keyed y) : (x.isNaN && y.isNaN || x == y) = true := by
  have hinfinity (z : Float) : ".nan" ≠ if z < 0.0 then "-.inf" else ".inf" := by split <;> decide
  rw [keyed_of_decode?_eq_none hx, keyed_of_decode?_eq_none hy] at h
  cases hnx : x.isNaN with
  | true =>
    cases hny : y.isNaN with
    | true => rfl
    | false =>
      rw [hnx, hny, if_pos rfl, if_neg Bool.false_ne_true] at h
      exact absurd h (hinfinity y)
  | false =>
    cases hny : y.isNaN with
    | true =>
      rw [hnx, hny, if_pos rfl, if_neg Bool.false_ne_true] at h
      exact absurd h.symm (hinfinity x)
    | false =>
      obtain ⟨s, hs⟩ := exists_infinity hx hnx
      obtain ⟨t, ht⟩ := exists_infinity hy hny
      rw [hnx, hny, if_neg Bool.false_ne_true, if_neg Bool.false_ne_true] at h
      have hst : s = t := by
        cases s with
        | negative =>
          cases t with
          | negative => rfl
          | positive =>
            rw [if_pos ((lt_zero_of_infinity hs).2 rfl), if_neg (mt (lt_zero_of_infinity ht).1 nofun)] at h
            exact absurd h (by decide)
        | positive =>
          cases t with
          | negative =>
            rw [if_neg (mt (lt_zero_of_infinity hs).1 nofun), if_pos ((lt_zero_of_infinity ht).2 rfl)] at h
            exact absurd h (by decide)
          | positive => rfl
      rw [Bool.false_and, Bool.false_or, Double.beq_iff, hs, ht, hst]
      exact .inl ⟨rfl, nofun⟩

/-- Doubles of one name are the same number. -/
theorem beq_of_keyed {y : Float} (h : keyed x = keyed y) : (x.isNaN && y.isNaN || x == y) = true := by
  cases hx : Double.decode? x with
  | none =>
    cases hy : Double.decode? y with
    | none => exact beq_of_keyed_of_none hx hy h
    | some d =>
      have := readDecimal?_keyed hy
      rw [← h, readDecimal?_keyed_of_none hx] at this
      cases this
  | some d =>
    have hread := readDecimal?_keyed hx
    cases hy : Double.decode? y with
    | none =>
      rw [h, readDecimal?_keyed_of_none hy] at hread
      cases hread
    | some d' =>
      have hnumber : x.isNaN = false := isNaN_readDecimal? hread
      rw [h, readDecimal?_keyed hy] at hread
      obtain rfl : y = x := Option.some.inj hread
      rw [hnumber, Bool.false_and, Bool.false_or, Double.beq_iff]
      refine .inl ⟨rfl, fun hnan => ?_⟩
      change y.toModel.unpack.isNaN = false at hnumber
      rw [hnan] at hnumber
      cases hnumber

end Doubles

end LiveNotes.Number
