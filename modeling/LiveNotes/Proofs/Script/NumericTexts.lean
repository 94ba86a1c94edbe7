import LiveNotes.Proofs.Number.Numerals
import LiveNotes.Script.Convert

/-!
Texts as numbers: which texts are numbers for the function language, and which of them are taken for
something else. Hexadecimal digits are read with the numbers of 64 bits, so that a sign is read behind the
prefix and numerals of more bits are not read at all.

* `NumericText`: the texts that are numbers; `Misread`: the texts that are taken otherwise;
* `readNumber?_hexadecimal`, `readNumber?_plain`: what is read, with the prefix of hexadecimal digits and
  without;
* `isNaN_string_iff`: the text of a number is one exactly if it is not misread.
-/

namespace LiveNotes.Script

open Number Text

/-- The texts that are numbers: nothing, infinity, hexadecimal digits and decimal numerals. -/
inductive NumericText : List Char → Prop where
  | blank : NumericText []
  | infinite {negative : Bool} {sign : List Char} (h : SignText negative sign) :
      NumericText (sign ++ "Infinity".toList)
  | hexadecimal {x : Char} {ds : List Char} {n : Nat} (hx : x = 'x' ∨ x = 'X') (h : DigitsOf 16 ds n) :
      NumericText ('0' :: x :: ds)
  | decimal {s : List Char} (h : DecimalText s) : NumericText s

/-- Hexadecimal texts that are not taken as they are: with a sign behind the prefix they are read as
numbers, and without one they are not read beyond 64 bits. -/
inductive Misread : List Char → Prop where
  | signed {x : Char} {negative : Bool} {sign ds : List Char} {n : Nat} {m : Int64} (hx : x = 'x' ∨ x = 'X')
      (hs : SignText negative sign) (hne : sign ≠ []) (h : DigitsOf 16 ds n)
      (hm : fit? (if negative then -(n : Int) else n) = some m) : Misread ('0' :: x :: (sign ++ ds))
  | large {x : Char} {ds : List Char} {n : Nat} (hx : x = 'x' ∨ x = 'X') (h : DigitsOf 16 ds n)
      (hn : fit? n = none) : Misread ('0' :: x :: ds)

section Texts

variable {x : Char} {hex s : List Char}

/-! ### Behind the prefix of hexadecimal digits -/

/-- A prefix of hexadecimal digits starts no other kind of number. -/
theorem numericText_hexadecimal_iff (hx : x = 'x' ∨ x = 'X') :
    NumericText ('0' :: x :: hex) ↔ ∃ n, DigitsOf 16 hex n := by
  constructor
  · intro h
    generalize ht : '0' :: x :: hex = t at h
    cases h with
    | blank => cases ht
    | infinite hs => cases hs <;> cases ht
    | hexadecimal _ h =>
      cases ht
      exact ⟨_, h⟩
    | decimal h =>
      subst ht
      rw [← isSome_readDecimal?_iff] at h
      rcases hx with rfl | rfl <;> cases h
  · rintro ⟨n, h⟩
    exact .hexadecimal hx h

theorem misread_hexadecimal_iff (hx : x = 'x' ∨ x = 'X') : Misread ('0' :: x :: hex) ↔
    (∃ negative sign ds, ∃ n : Nat, ∃ m, SignText negative sign ∧ sign ≠ [] ∧ DigitsOf 16 ds n ∧
      fit? (if negative then -(n : Int) else n) = some m ∧ hex = sign ++ ds) ∨
      ∃ n : Nat, DigitsOf 16 hex n ∧ fit? n = none := by
  constructor
  · intro h
    cases h with
    | signed _ hs hne h hm => exact .inl ⟨_, _, _, _, _, hs, hne, h, hm, rfl⟩
    | large _ h hn => exact .inr ⟨_, h, hn⟩
  · rintro (⟨_, _, _, _, _, hs, hne, h, hm, rfl⟩ | ⟨_, h, hn⟩)
    · exact .signed hx hs hne h hm
    · exact .large hx h hn

theorem readNumber?_hexadecimal (hx : x = 'x' ∨ x = 'X') (h : trim s = '0' :: x :: hex) :
    readNumber? s = ((readRadix? 16 hex).bind fit?).map Double.ofInteger := by
  unfold readNumber?
  rcases hx with rfl | rfl <;> simp only [h]

theorem isSome_readNumber?_hexadecimal (hx : x = 'x' ∨ x = 'X') (h : trim s = '0' :: x :: hex) :
    (readNumber? s).isSome = true ↔ ∃ n m, readRadix? 16 hex = some n ∧ fit? n = some m := by
  rw [readNumber?_hexadecimal hx h, Option.isSome_map, Option.isSome_iff_exists]
  simp only [Option.bind_eq_some_iff]
  exact exists_comm

/-- Digits alone are misread when their number has more than 64 bits, digits with a sign when it has not. -/
theorem isSome_readNumber?_hexadecimal_iff (hx : x = 'x' ∨ x = 'X') (h : trim s = '0' :: x :: hex) :
    ((readNumber? s).isSome = true ↔ NumericText (trim s)) ↔ ¬ Misread (trim s) := by
  rw [isSome_readNumber?_hexadecimal hx h, h, numericText_hexadecimal_iff hx, misread_hexadecimal_iff hx]
  by_cases hdigits : ∃ n, DigitsOf 16 hex n
  · obtain ⟨n, hn⟩ := hdigits
    have hread : readRadix? 16 hex = some n := readRadix?_eq_some_iff.2 ⟨false, [], hex, n, .absent, hn, rfl, rfl⟩
    have hunsigned : ¬ ∃ negative sign ds, ∃ k : Nat, ∃ m, SignText negative sign ∧ sign ≠ [] ∧ DigitsOf 16 ds k ∧
        fit? (if negative then -(k : Int) else k) = some m ∧ hex = sign ++ ds := by
      rintro ⟨negative, sign, ds, k, m, hsign, hne, -, -, rfl⟩
      cases hsign with
      | absent => exact hne rfl
      | plus | minus => exact absurd (hn.digits _ List.mem_cons_self) (by decide)
    have hlarge : (∃ k : Nat, DigitsOf 16 hex k ∧ fit? k = none) ↔ fit? n = none := by
      refine ⟨?_, fun h => ⟨n, hn, h⟩⟩
      rintro ⟨k, hk, hfit⟩
      rwa [← hn.value, hk.value]
    have hfits : (∃ i m, readRadix? 16 hex = some i ∧ fit? i = some m) ↔ fit? (n : Int) ≠ none := by
      rw [hread, Option.ne_none_iff_exists']
      constructor
      · rintro ⟨i, m, hi, hm⟩
        cases hi
        exact ⟨m, hm⟩
      · rintro ⟨m, hm⟩
        exact ⟨n, m, rfl, hm⟩
    rw [hfits, hlarge]
    simp only [hunsigned, false_or]
    exact iff_true_right ⟨n, hn⟩
  · have hlarge : ¬ ∃ k : Nat, DigitsOf 16 hex k ∧ fit? k = none := fun ⟨k, hk, _⟩ => hdigits ⟨k, hk⟩
    simp only [hdigits, hlarge, iff_false, or_false]
    refine not_congr ?_
    constructor
    · rintro ⟨n, m, hread, hm⟩
      obtain ⟨negative, sign, ds, k, hsign, hds, rfl, rfl⟩ := readRadix?_eq_some_iff.1 hread
      refine ⟨negative, sign, ds, k, m, hsign, ?_, hds, hm, rfl⟩
      rintro rfl
      exact hdigits ⟨k, hds⟩
    · rintro ⟨negative, sign, ds, k, m, hsign, -, hds, hm, rfl⟩
      exact ⟨_, m, readRadix?_eq_some_iff.2 ⟨negative, sign, ds, k, hsign, hds, rfl, rfl⟩, hm⟩

/-! ### Without the prefix -/

theorem readNumber?_plain (hne : trim s ≠ []) (hp : ∀ x hex, x = 'x' ∨ x = 'X' → trim s ≠ '0' :: x :: hex) :
    readNumber? s = if trim s = "Infinity".toList ∨ trim s = "+Infinity".toList then some Double.infinity
      else if trim s = "-Infinity".toList then some (-Double.infinity) else readDecimal? (trim s) := by
  unfold readNumber?
  split
  · next h => exact absurd h hne
  · next h => exact absurd h (hp _ _ (.inl rfl))
  · next h => exact absurd h (hp _ _ (.inr rfl))
  · rfl

theorem isSome_readNumber?_plain_iff (hne : trim s ≠ [])
    (hp : ∀ x hex, x = 'x' ∨ x = 'X' → trim s ≠ '0' :: x :: hex) :
    (readNumber? s).isSome = true ↔ NumericText (trim s) := by
  rw [readNumber?_plain hne hp]
  by_cases hplus : trim s = "Infinity".toList ∨ trim s = "+Infinity".toList
  · rw [if_pos hplus]
    refine ⟨fun _ => ?_, fun _ => rfl⟩
    rcases hplus with h | h
    · rw [h]
      exact .infinite .absent
    · rw [h]
      exact .infinite .plus
  · rw [if_neg hplus]
    by_cases hminus : trim s = "-Infinity".toList
    · rw [if_pos hminus, hminus]
      exact ⟨fun _ => .infinite .minus, fun _ => rfl⟩
    · rw [if_neg hminus, isSome_readDecimal?_iff]
      refine ⟨.decimal, fun h => ?_⟩
      generalize ht : trim s = t at *
      cases h with
      | blank => exact absurd rfl hne
      | infinite hs =>
        cases hs with
        | absent => exact absurd (.inl rfl) hplus
        | plus => exact absurd (.inr rfl) hplus
        | minus => exact absurd rfl hminus
      | hexadecimal hx => exact absurd rfl (hp _ _ hx)
      | decimal h => exact h

/-! ### All texts -/

/-- Whatever is read is a number. -/
theorem isNaN_readNumber? {y : Float} (h : readNumber? s = some y) : y.isNaN = false := by
  unfold readNumber? at h
  split at h
  · cases h
    decide
  · obtain ⟨n, -, rfl⟩ := Option.map_eq_some_iff.1 h
    exact Double.isNaN_ofInteger n
  · obtain ⟨n, -, rfl⟩ := Option.map_eq_some_iff.1 h
    exact Double.isNaN_ofInteger n
  · split at h
    · cases h
      decide
    · split at h
      · cases h
        decide
      · exact isNaN_readDecimal? h

theorem isNaN_toNumber_string (s : String) :
    (Value.string s).toNumber.isNaN = false ↔ (readNumber? s.toList).isSome = true := by
  rw [Value.toNumber]
  cases h : readNumber? s.toList with
  | none => exact iff_of_false (by decide) (by decide)
  | some y => exact iff_of_true (isNaN_readNumber? h) rfl

end Texts

/-- The texts of numbers, and only they, are taken as numbers, unless they are misread; a text that is misread
is taken as a number exactly if it is the text of none. -/
theorem isNaN_string_iff (s : String) :
    ((Value.string s).toNumber.isNaN = false ↔ NumericText (trim s.toList)) ↔ ¬ Misread (trim s.toList) := by
  rw [isNaN_toNumber_string]
  by_cases hp : ∃ x hex, (x = 'x' ∨ x = 'X') ∧ trim s.toList = '0' :: x :: hex
  · obtain ⟨x, hex, hx, h⟩ := hp
    exact isSome_readNumber?_hexadecimal_iff hx h
  · have hmisread : ¬ Misread (trim s.toList) := by
      intro h
      generalize ht : trim s.toList = t at h
      cases h with
      | signed hx => exact hp ⟨_, _, hx, ht⟩
      | large hx => exact hp ⟨_, _, hx, ht⟩
    refine iff_of_true ?_ hmisread
    by_cases hne : trim s.toList = []
    · have hread : readNumber? s.toList = some 0.0 := by
        unfold readNumber?
        simp only [hne]
      rw [hread, hne]
      exact iff_of_true rfl .blank
    · exact isSome_readNumber?_plain_iff hne fun x hex hx h => hp ⟨x, hex, hx, h⟩

/-- A sign behind the prefix is read, and digits of more than 64 bits are not. -/
theorem isNaN_string_misread :
    ((Value.string "0x-5").toNumber.isNaN = false ∧ ¬ NumericText (trim "0x-5".toList)) ∧
      (Value.string "0x8000000000000000").toNumber.isNaN = true ∧
        NumericText (trim "0x8000000000000000".toList) := by
  have hsigned : trim "0x-5".toList = '0' :: 'x' :: ['-', '5'] := by decide
  have hlarge : trim "0x8000000000000000".toList = '0' :: 'x' :: '8' :: List.replicate 15 '0' := by decide
  rw [hsigned, hlarge, numericText_hexadecimal_iff (.inl rfl), numericText_hexadecimal_iff (.inl rfl)]
  refine ⟨⟨by decide, ?_⟩, by decide, 2 ^ 63, by decide, List.all_eq_true.1 (by decide), by decide⟩
  rintro ⟨n, hn⟩
  exact absurd (hn.digits '-' List.mem_cons_self) (by decide)

end LiveNotes.Script
