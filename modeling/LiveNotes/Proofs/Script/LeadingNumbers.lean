import LiveNotes.Proofs.Number.Scan
import LiveNotes.Proofs.Script.NumericTexts

/-!
The number at the start of a text. Behind a sign it goes on as long as the grammar of numerals allows, and what
turns out to lead to no numeral is given up again: a sign alone, a point alone, the letter of an exponent
without digits.

* `LongestNumeral`: the longest of the numerals that a text starts with;
* `MantissaCut.prefix_of_mantissa`, `exponent_prefix_takeExponent`: what a numeral can have in common with a
  text, part by part;
* `longestNumeral_takeNumeral?`, `takeNumeral?_eq_none_iff`: what is taken is the longest numeral, and nothing
  is taken only where no numeral starts the text;
* `readLeading?_longest`: the double that is read is that of the longest numeral.
-/

namespace LiveNotes

namespace Number

open Text

/-- The longest numeral at the start of a text. -/
structure LongestNumeral (s numeral : List Char) : Prop where
  starts : numeral <+: s
  decimal : DecimalText numeral
  longest : ∀ other, other <+: s → DecimalText other → other.length ≤ numeral.length

section Numerals

variable {c : Char} {ds m e s t u sign whole point rest numeral : List Char}

/-- There is at most one longest numeral. -/
theorem LongestNumeral.unique {other : List Char} (h : LongestNumeral s numeral) (h' : LongestNumeral s other) :
    numeral = other :=
  (List.prefix_of_prefix_length_le h.starts h'.starts (h'.longest _ h.starts h.decimal)).eq_of_length_le
    (h.longest _ h'.starts h'.decimal)

/-! ### Signs -/

theorem SignBefore.signText (h : SignBefore sign t) : ∃ negative, SignText negative sign := by
  cases h with
  | absent => exact ⟨_, .absent⟩
  | plus => exact ⟨_, .plus⟩
  | minus => exact ⟨_, .minus⟩

theorem SignBefore.takeSign (h : SignBefore sign t) : (takeSign (sign ++ t)).2 = t := by
  cases h with
  | plus | minus => rfl
  | absent h =>
    have hs : ∀ c ∈ t.head?, c ≠ '-' ∧ c ≠ '+' := by
      intro c hc
      constructor
      · rintro rfl
        exact h (.inr hc)
      · rintro rfl
        exact h (.inl hc)
    exact congrArg Prod.snd (takeSign_append .absent hs)

theorem SignText.signBefore {negative : Bool} (h : SignText negative sign)
    (hs : ∀ c ∈ t.head?, c ≠ '-' ∧ c ≠ '+') : SignBefore sign t := by
  cases h with
  | plus => exact .plus t
  | minus => exact .minus t
  | absent =>
    refine .absent ?_
    rintro (h | h)
    · exact (hs _ h).2 rfl
    · exact (hs _ h).1 rfl

/-- The sign of a numeral is the sign that its text starts with. -/
theorem SignBefore.eq_of_mantissa {negative : Bool} {sign' : List Char} (h : SignBefore sign t)
    (hs : SignText negative sign') (hm : Mantissa m) (ht : sign' ++ (m ++ u) = sign ++ t) :
    sign' = sign ∧ m ++ u = t := by
  have hrest : m ++ u = t := by
    rw [← h.takeSign, ← ht, takeSign_append hs hm.not_sign]
  refine ⟨?_, hrest⟩
  rwa [hrest, List.append_left_inj] at ht

/-! ### Digits and points -/

/-- Digits at the start of a text are among those in front of what is no digit. -/
theorem prefix_of_digits (hd : ∀ c ∈ ds, c.isDigit = true) (hr : ∀ c ∈ rest.head?, c.isDigit = false)
    (h : ds <+: whole ++ rest) : ds <+: whole := by
  obtain ⟨u, hu⟩ := h
  rcases List.append_eq_append_iff.1 hu with ⟨a, rfl, -⟩ | ⟨a, rfl, ha⟩
  · exact List.prefix_append ds a
  · cases a with
    | nil => rw [List.append_nil]
    | cons c a =>
      have hdigit : c.isDigit = true := hd c (by simp)
      rw [hr c (by simp [ha])] at hdigit
      cases hdigit

theorem MantissaCut.head? (h : MantissaCut whole point rest) : ∀ c ∈ (point ++ rest).head?, c.isDigit = false := by
  cases h with
  | bare _ hr => exact hr
  | pointed =>
    intro c hc
    cases hc
    rfl

/-- Before the rest stand nothing but digits and the point. -/
theorem MantissaCut.isDigit_or_point (h : MantissaCut whole point rest) :
    ∀ c ∈ whole ++ point, c.isDigit = true ∨ c = '.' := by
  intro c hc
  cases h with
  | bare hw =>
    rw [List.append_nil] at hc
    exact .inl (hw c hc)
  | pointed hw hf =>
    rcases List.mem_append.1 hc with hc | hc
    · exact .inl (hw c hc)
    · rcases List.mem_cons.1 hc with rfl | hc
      · exact .inr rfl
      · exact .inl (hf c hc)

/-- Digits, a point and digits at the start of a text do not go on behind the cut. -/
theorem MantissaCut.prefix_of_point {fs : List Char} (h : MantissaCut whole point rest)
    (hd : ∀ c ∈ ds, c.isDigit = true) (hf : ∀ c ∈ fs, c.isDigit = true)
    (hm : ds ++ '.' :: fs <+: whole ++ (point ++ rest)) : ds ++ '.' :: fs <+: whole ++ point := by
  obtain ⟨a, rfl⟩ := prefix_of_digits hd h.head? ((List.prefix_append ds _).trans hm)
  rw [List.append_assoc, List.prefix_append_right_inj] at hm
  cases a with
  | cons c a =>
    -- the point would be one of the digits
    obtain ⟨rfl, -⟩ := List.cons_prefix_cons.1 hm
    have hpoint : ∀ c ∈ ds ++ '.' :: a, c.isDigit = true := by cases h with | bare hw | pointed hw => exact hw
    exact absurd (hpoint '.' (by simp)) (by decide)
  | nil =>
    rw [List.append_nil, List.prefix_append_right_inj]
    cases h with
    | bare _ _ hp =>
      obtain ⟨t, ht⟩ := hm
      exact absurd (congrArg List.head? ht).symm hp
    | pointed _ _ hr =>
      rw [List.nil_append, List.cons_append, List.prefix_cons_inj] at hm
      rw [List.prefix_cons_inj]
      exact prefix_of_digits hf hr hm

/-- The digits and the point of a numeral do not go on behind the cut. -/
theorem MantissaCut.prefix_of_mantissa (h : MantissaCut whole point rest) (hm : Mantissa m)
    (hp : m <+: whole ++ (point ++ rest)) : m <+: whole ++ point := by
  cases hm with
  | whole hd => exact (prefix_of_digits hd.2 h.head? hp).trans (List.prefix_append whole point)
  | point hd hf => exact h.prefix_of_point hd.2 hf hp
  | fraction hf => exact h.prefix_of_point (List.forall_mem_nil _) hf.2 hp

theorem Mantissa.exists_digit (h : Mantissa m) : ∃ c ∈ m, c.isDigit = true := by
  cases h with
  | whole h | point h =>
    obtain ⟨c, hc⟩ := List.exists_mem_of_ne_nil _ h.1
    exact ⟨c, by simp [hc], h.2 c hc⟩
  | fraction h =>
    obtain ⟨c, hc⟩ := List.exists_mem_of_ne_nil _ h.1
    exact ⟨c, by simp [hc], h.2 c hc⟩

/-- The digits and the point in front of the rest belong to a numeral, unless there is no digit among them. -/
theorem MantissaCut.mantissa (h : MantissaCut whole point rest) (hne : ¬ (whole = [] ∧ point.length ≤ 1)) :
    Mantissa (whole ++ point) := by
  cases h with
  | bare hw =>
    rw [List.append_nil]
    exact .whole ⟨fun hnil => hne ⟨hnil, Nat.zero_le 1⟩, hw⟩
  | @pointed fs _ hw hf =>
    by_cases hnil : whole = []
    · have hfs : fs ≠ [] := by
        rintro rfl
        exact hne ⟨hnil, Nat.le_refl 1⟩
      rw [hnil, List.nil_append]
      exact .fraction ⟨hfs, hf⟩
    · exact .point ⟨hnil, hw⟩ hf

/-- Without digits, and without digits behind the point, no numeral starts there. -/
theorem MantissaCut.not_mantissa (h : MantissaCut whole point rest) (hnone : whole = [] ∧ point.length ≤ 1)
    (hp : m <+: whole ++ point) : ¬ Mantissa m := by
  intro hm
  obtain ⟨c, hc, hdigit⟩ := hm.exists_digit
  obtain ⟨rfl, hlength⟩ := hnone
  have hc := hp.subset hc
  cases h with
  | bare => cases hc
  | @pointed fs =>
    obtain rfl : fs = [] := by simpa using hlength
    obtain rfl : c = '.' := by simpa using hc
    cases hdigit

/-! ### Exponents -/

theorem exponent_takeExponent (s : List Char) : Exponent (takeExponent s) := by
  by_cases hletter : s.head? = some 'e' ∨ s.head? = some 'E'
  · obtain ⟨e, u, rfl, he⟩ := exists_letter hletter
    obtain ⟨sign, t, rfl, hsign⟩ := exists_signBefore u
    rw [takeExponent_cons he hsign]
    by_cases hnone : t.takeWhile Char.isDigit = []
    · rw [if_pos hnone]
      exact .absent
    · obtain ⟨negative, hs⟩ := hsign.signText
      rw [if_neg hnone]
      exact .present he hs ⟨hnone, fun c hc => List.mem_takeWhile_imp hc⟩
  · rw [takeExponent_eq_nil hletter]
    exact .absent

/-- An exponent at the start of a text is part of the one that is taken. -/
theorem exponent_prefix_takeExponent (h : Exponent e) (hp : e <+: s) : e <+: takeExponent s := by
  cases h with
  | absent => exact List.nil_prefix
  | @present x negative sign ds hx hs hd =>
    obtain ⟨u, rfl⟩ := hp
    have hnot : ∀ c ∈ (ds ++ u).head?, c ≠ '-' ∧ c ≠ '+' := (Mantissa.whole hd).not_sign
    have htake : ds <+: (ds ++ u).takeWhile Char.isDigit := by
      rw [List.takeWhile_append_of_pos hd.2]
      exact List.prefix_append ds _
    have hne : (ds ++ u).takeWhile Char.isDigit ≠ [] := fun hnil => hd.1 (List.prefix_nil.1 (hnil ▸ htake))
    rw [List.cons_append, List.append_assoc, takeExponent_cons hx (hs.signBefore hnot), if_neg hne,
      List.prefix_cons_inj, List.prefix_append_right_inj]
    exact htake

/-! ### Numerals -/

/-- Behind the sign, a numeral at the start of a text is part of the digits, the point and the exponent that
are taken. -/
theorem MantissaCut.prefix_of_numeral (h : MantissaCut whole point rest) (hm : Mantissa m) (he : Exponent e)
    (hp : m ++ e <+: whole ++ (point ++ rest)) : m ++ e <+: whole ++ point ++ takeExponent rest := by
  obtain ⟨w, hw⟩ := h.prefix_of_mantissa hm ((List.prefix_append m e).trans hp)
  rw [← List.append_assoc, ← hw, List.append_assoc, List.prefix_append_right_inj] at hp
  rw [← hw, List.append_assoc, List.prefix_append_right_inj]
  cases he with
  | absent => exact List.nil_prefix
  | present hx hs hd =>
    cases w with
    | nil => exact exponent_prefix_takeExponent (.present hx hs hd) hp
    | cons c w =>
      -- the letter of the exponent would be a digit or the point
      obtain ⟨rfl, -⟩ := List.cons_prefix_cons.1 hp
      have hc := h.isDigit_or_point _ (hw ▸ List.mem_append_right m List.mem_cons_self)
      rcases hx with rfl | rfl <;> exact absurd hc (by decide)

/-- What is taken is the longest numeral. -/
theorem longestNumeral_takeNumeral? (h : takeNumeral? s = some numeral) : LongestNumeral s numeral := by
  obtain ⟨sign, t, rfl, hsign⟩ := exists_signBefore s
  obtain ⟨whole, point, rest, rfl, hcut⟩ := exists_mantissaCut t
  have hstarts := takeNumeral?_prefix h
  obtain ⟨negative, hs⟩ := hsign.signText
  rw [hcut.takeNumeral? hsign] at h
  split at h
  · cases h
  · next hne =>
    cases h
    rw [List.append_assoc] at hstarts ⊢
    refine ⟨hstarts, .mk hs (hcut.mantissa hne) (exponent_takeExponent rest), ?_⟩
    rintro _ ⟨u, hu⟩ ⟨hs', hm, he⟩
    rw [List.append_assoc, List.append_assoc] at hu
    obtain ⟨rfl, hrest⟩ := hsign.eq_of_mantissa hs' hm hu
    have hpart := hcut.prefix_of_numeral hm he ⟨u, by rw [List.append_assoc, hrest]⟩
    exact ((List.prefix_append_right_inj _).2 hpart).length_le

/-- Nothing is taken exactly where no numeral starts the text. -/
theorem takeNumeral?_eq_none_iff : takeNumeral? s = none ↔ ∀ p, p <+: s → ¬ DecimalText p := by
  constructor
  · rintro h _ ⟨u, hu⟩ ⟨hs, hm, he⟩
    obtain ⟨sign, t, rfl, hsign⟩ := exists_signBefore s
    obtain ⟨whole, point, rest, rfl, hcut⟩ := exists_mantissaCut t
    rw [hcut.takeNumeral? hsign] at h
    split at h
    · next hnone =>
      rw [List.append_assoc, List.append_assoc] at hu
      obtain ⟨-, hrest⟩ := hsign.eq_of_mantissa hs hm hu
      exact hcut.not_mantissa hnone (hcut.prefix_of_mantissa hm ⟨_, hrest⟩) hm
    · cases h
  · intro h
    cases hs : takeNumeral? s with
    | none => rfl
    | some numeral =>
      have hlongest := longestNumeral_takeNumeral? hs
      exact absurd hlongest.decimal (h numeral hlongest.starts)

/-- The longest numeral is what is taken. -/
theorem takeNumeral?_eq_some_iff : takeNumeral? s = some numeral ↔ LongestNumeral s numeral := by
  refine ⟨longestNumeral_takeNumeral?, fun h => ?_⟩
  cases hs : takeNumeral? s with
  | none => exact absurd h.decimal (takeNumeral?_eq_none_iff.1 hs numeral h.starts)
  | some other => rw [(longestNumeral_takeNumeral? hs).unique h]

end Numerals

end Number

namespace Script

open Number Text

/-! ### The double that is read -/

/-- The word for infinity starts a text, perhaps behind a sign. -/
def StartsInfinite (s : List Char) : Prop :=
  ∃ negative sign, SignText negative sign ∧ sign ++ "Infinity".toList <+: s

section Texts

variable {s : List Char}

theorem readLeading?_of_not_startsInfinite (h : ¬ StartsInfinite (trimStart s)) :
    readLeading? s = (takeNumeral? (trimStart s)).bind readDecimal? := by
  have hword {negative : Bool} {sign : List Char} (hs : SignText negative sign) :
      ¬ (sign ++ "Infinity".toList).isPrefixOf (trimStart s) = true := by
    rw [List.isPrefixOf_iff_prefix]
    exact fun hp => h ⟨negative, sign, hs, hp⟩
  have hpositive : ¬ ("Infinity".toList.isPrefixOf (trimStart s) || "+Infinity".toList.isPrefixOf (trimStart s)) =
      true := by
    rw [Bool.or_eq_true, not_or]
    exact ⟨hword .absent, hword .plus⟩
  have hnegative : ¬ "-Infinity".toList.isPrefixOf (trimStart s) = true := hword .minus
  exact (if_neg hpositive).trans (if_neg hnegative)

/-- The longest numeral is read, wherever there is one. -/
theorem exists_readLeading?_of_longest {numeral : List Char} (h : ¬ StartsInfinite (trimStart s))
    (hlongest : LongestNumeral (trimStart s) numeral) :
    ∃ x, readDecimal? numeral = some x ∧ readLeading? s = some x := by
  obtain ⟨x, hx⟩ := Option.isSome_iff_exists.1 (isSome_readDecimal?_iff.2 hlongest.decimal)
  refine ⟨x, hx, ?_⟩
  rw [readLeading?_of_not_startsInfinite h, takeNumeral?_eq_some_iff.2 hlongest, Option.bind_some, hx]

end Texts

/-- Where no infinity starts a text, the number at its start is that of the longest numeral there. What is taken
from the text, and what the scan of its bytes ends behind, is exactly the longest numeral; it can always be read,
and its double is the result. There is no number exactly where no numeral starts the text. -/
theorem readLeading?_longest (s : List Char) (h : ¬ StartsInfinite (trimStart s)) :
    (∀ numeral, takeNumeral? (trimStart s) = some numeral ↔ LongestNumeral (trimStart s) numeral) ∧
      (∀ numeral, LongestNumeral (trimStart s) numeral →
        numeralEnd? (utf8 (trimStart s)) = some (bytes numeral) ∧
          ∃ x, readDecimal? numeral = some x ∧ readLeading? s = some x) ∧
      (((readLeading? s).getD Double.nan).isNaN = true ↔ ∀ p, p <+: trimStart s → ¬ DecimalText p) := by
  refine ⟨fun numeral => takeNumeral?_eq_some_iff, fun numeral hlongest => ⟨?_, ?_⟩, ?_⟩
  · rw [numeralEnd?_utf8, takeNumeral?_eq_some_iff.2 hlongest, Option.map_some]
  · exact exists_readLeading?_of_longest h hlongest
  · rw [← takeNumeral?_eq_none_iff]
    cases htake : takeNumeral? (trimStart s) with
    | none =>
      rw [readLeading?_of_not_startsInfinite h, htake]
      exact iff_of_true (by decide) rfl
    | some numeral =>
      obtain ⟨x, hx, hread⟩ := exists_readLeading?_of_longest h (takeNumeral?_eq_some_iff.1 htake)
      rw [hread, Option.getD_some, isNaN_readDecimal? hx]
      exact iff_of_false Bool.false_ne_true (Option.some_ne_none numeral)

/-- A point with no digits behind it belongs to the numeral, and the second exponent, which has none, does not. -/
theorem readLeading?_longest_leftover : ¬ StartsInfinite (trimStart " -7.e+2e+kg".toList) ∧
    LongestNumeral (trimStart " -7.e+2e+kg".toList) "-7.e+2".toList ∧
    readLeading? " -7.e+2e+kg".toList = some (-700.0) ∧
    ((readLeading? " -7.e+2e+kg".toList).getD Double.nan).isNaN = false := by
  have htrim : trimStart " -7.e+2e+kg".toList = "-7.e+2e+kg".toList := by decide
  have hfinite : ¬ StartsInfinite (trimStart " -7.e+2e+kg".toList) := by
    rw [htrim]
    rintro ⟨_, _, hs, hp⟩
    cases hs <;> exact absurd hp (by decide)
  obtain ⟨htake, hread, hnan⟩ := readLeading?_longest " -7.e+2e+kg".toList hfinite
  have hlongest := (htake "-7.e+2".toList).1 (by decide)
  obtain ⟨-, x, hx, hx'⟩ := hread _ hlongest
  have hvalue : readDecimal? "-7.e+2".toList = some (-700.0) := by decide
  refine ⟨hfinite, hlongest, hx'.trans (hx.symm.trans hvalue), Bool.eq_false_iff.2 fun h => ?_⟩
  exact hnan.1 h _ hlongest.starts hlongest.decimal

end Script

end LiveNotes
