import Mathlib.Data.List.TakeWhile
import LiveNotes.Number.Numeral
import LiveNotes.Proofs.Text.Blank
import LiveNotes.Proofs.Text.Bytes

/-!
The numeral at the start of a text, found byte by byte. A numeral has only characters of one byte, so that
every position where the scan stops is one where a character begins.

* `digitsEnd`, `mantissaEnd?`, `exponentEnd`: the bytes where the parts of a numeral end;
* `numeralEnd?`: the byte where the numeral ends; `numeralEnd?_utf8`: this is the end of the numeral that is
  read from the characters.
-/

namespace LiveNotes.Number

open Text

/-! ### The scan -/

/-- Whether a byte is a decimal digit. -/
def isDigitByte (b : UInt8) : Bool := decide (48 ≤ b.toNat ∧ b.toNat ≤ 57)

/-- Whether one of two characters stands at a byte. -/
def standsAt (bs : List UInt8) (i : Nat) (c d : Char) : Bool :=
  bs[i]? == some (firstByte c) || bs[i]? == some (firstByte d)

/-- The first byte from a position on that is no digit. -/
def digitsEnd (bs : List UInt8) (i : Nat) : Nat :=
  if h : i < bs.length then if isDigitByte bs[i] then digitsEnd bs (i + 1) else i else i
termination_by bs.length - i

/-- The end of the digits and the point behind a sign; none without a digit. -/
def mantissaEnd? (bs : List UInt8) (start : Nat) : Option Nat :=
  let whole := digitsEnd bs start
  let last := if standsAt bs whole '.' '.' then digitsEnd bs (whole + 1) else whole
  if whole = start ∧ last ≤ start + 1 then none else some last

/-- The end of the exponent behind a position; without digits in it there is no exponent. -/
def exponentEnd (bs : List UInt8) (last : Nat) : Nat :=
  if standsAt bs last 'e' 'E' then
    let digits := last + 1 + if standsAt bs (last + 1) '+' '-' then 1 else 0
    if digits < digitsEnd bs digits then digitsEnd bs digits else last
  else last

/-- The byte where the longest numeral at the start of a text ends. -/
def numeralEnd? (bs : List UInt8) : Option Nat :=
  (mantissaEnd? bs (if standsAt bs 0 '+' '-' then 1 else 0)).map (exponentEnd bs)

/-! ### What the scan finds -/

section Characters

variable {s t : List Char} {c d : Char}

theorem utf8Size_of_lt (h : c.toNat < 128) : c.utf8Size = 1 := by
  rw [utf8Size_eq, if_pos h]

theorem isDigitByte_firstByte (c : Char) : isDigitByte (firstByte c) = c.isDigit := by
  rw [Bool.eq_iff_iff, Char.isDigit_iff_toNat]
  unfold isDigitByte
  rw [decide_eq_true_iff]
  by_cases h : c.toNat < 128
  · rw [toNat_firstByte_of_lt h]
    rfl
  · have := le_firstByte (Nat.le_of_not_lt h)
    change _ ↔ 48 ≤ c.toNat ∧ c.toNat ≤ 57
    omega

theorem lt_of_isDigit (h : c.isDigit = true) : c.toNat < 128 := by
  have := (Char.isDigit_iff_toNat.1 h).2
  change c.toNat ≤ 57 at this
  omega

/-- What stands behind some characters is seen at the byte behind them. -/
theorem standsAt_utf8 (hc : c.toNat < 128) (hd : d.toNat < 128) :
    standsAt (utf8 (s ++ t)) (bytes s) c d = true ↔ t.head? = some c ∨ t.head? = some d := by
  unfold standsAt
  rw [getElem?_utf8_append]
  cases t with
  | nil => simp
  | cons x t => simp [firstByte_eq_iff hc, firstByte_eq_iff hd]

theorem bytes_of_isDigit (h : ∀ c ∈ s, c.isDigit = true) : bytes s = s.length := by
  induction s with
  | nil => rfl
  | cons c s ih =>
    obtain ⟨hc, hs⟩ := List.forall_mem_cons.1 h
    rw [bytes_cons, utf8Size_of_lt (lt_of_isDigit hc), ih hs, List.length_cons, Nat.add_comm]

/-- Digits behind some characters end where they end among the bytes. -/
theorem digitsEnd_utf8 (s t : List Char) :
    digitsEnd (utf8 (s ++ t)) (bytes s) = bytes (s ++ t.takeWhile Char.isDigit) := by
  induction t generalizing s with
  | nil =>
    have hend : ¬ bytes s < (utf8 (s ++ [])).length := by
      rw [List.append_nil, length_utf8]
      omega
    rw [digitsEnd, dif_neg hend, List.takeWhile_nil, List.append_nil]
  | cons c t ih =>
    have hin : bytes s < (utf8 (s ++ c :: t)).length := by
      have := c.utf8Size_pos
      rw [length_utf8, bytes_append, bytes_cons]
      omega
    have hbyte : (utf8 (s ++ c :: t))[bytes s] = firstByte c := by
      have := getElem?_utf8_append s (c :: t)
      rw [List.getElem?_eq_getElem hin] at this
      exact Option.some.inj this
    rw [digitsEnd, dif_pos hin, hbyte, isDigitByte_firstByte]
    by_cases hc : c.isDigit = true
    · have hnext := ih (s ++ [c])
      rw [bytes_append, bytes_cons, utf8Size_of_lt (lt_of_isDigit hc)] at hnext
      rw [if_pos hc, List.takeWhile_cons_of_pos hc]
      simpa using hnext
    · rw [if_neg hc, List.takeWhile_cons_of_neg hc, List.append_nil]

/-! ### Signs -/

/-- A text behind the sign that stands in front of it, if one does. -/
inductive SignBefore : (sign t : List Char) → Prop where
  | absent {t : List Char} (h : ¬ (t.head? = some '+' ∨ t.head? = some '-')) : SignBefore [] t
  | plus (t : List Char) : SignBefore ['+'] t
  | minus (t : List Char) : SignBefore ['-'] t

theorem exists_signBefore (s : List Char) : ∃ sign t, s = sign ++ t ∧ SignBefore sign t := by
  by_cases h : s.head? = some '+' ∨ s.head? = some '-'
  · rcases h with h | h
    · obtain ⟨t, rfl⟩ := List.head?_eq_some_iff.1 h
      exact ⟨['+'], t, rfl, .plus t⟩
    · obtain ⟨t, rfl⟩ := List.head?_eq_some_iff.1 h
      exact ⟨['-'], t, rfl, .minus t⟩
  · exact ⟨[], s, rfl, .absent h⟩

/-- The sign behind some characters, by its byte. -/
theorem SignBefore.length_eq {sign : List Char} (h : SignBefore sign t) (s : List Char) :
    (if standsAt (utf8 (s ++ (sign ++ t))) (bytes s) '+' '-' then 1 else 0) = bytes sign := by
  have hstands := standsAt_utf8 (s := s) (t := sign ++ t) (c := '+') (d := '-') (by decide) (by decide)
  cases h with
  | absent h => rw [if_neg (mt hstands.1 h), bytes_nil]
  | plus =>
    rw [if_pos (hstands.2 (.inl rfl))]
    rfl
  | minus =>
    rw [if_pos (hstands.2 (.inr rfl))]
    rfl

/-! ### Exponents -/

/-- The signs at the start of a text are the one sign, unless there is a second one and no digit. -/
theorem SignBefore.span {sign : List Char} (h : SignBefore sign t) :
    ∃ signs rest, (sign ++ t).span (fun c => c == '+' || c == '-') = (signs, rest) ∧
      ((signs = sign ∧ rest = t) ∨ (1 < signs.length ∧ t.takeWhile Char.isDigit = [])) := by
  have hone (c : Char) (hc : (c == '+' || c == '-') = true) :
      ∃ signs rest, (c :: t).span (fun c => c == '+' || c == '-') = (signs, rest) ∧
        ((signs = [c] ∧ rest = t) ∨ (1 < signs.length ∧ t.takeWhile Char.isDigit = [])) := by
    rw [List.span_eq_takeWhile_dropWhile]
    cases t with
    | nil => exact ⟨_, _, rfl, .inl (by simp [hc])⟩
    | cons d t =>
      by_cases hd : d = '+' ∨ d = '-'
      · have hdigit : d.isDigit = false := by rcases hd with rfl | rfl <;> rfl
        exact ⟨_, _, rfl, .inr (by simp [hc, hd, hdigit])⟩
      · exact ⟨_, _, rfl, .inl (by simp [hc, hd])⟩
  cases h with
  | absent h =>
    rw [List.nil_append, List.span_eq_takeWhile_dropWhile]
    refine ⟨_, _, rfl, .inl ?_⟩
    cases t with
    | nil => exact ⟨rfl, rfl⟩
    | cons c t =>
      have hc : ¬ (c = '+' ∨ c = '-') := by simpa using h
      simp [hc]
  | plus => exact hone '+' rfl
  | minus => exact hone '-' rfl

/-- The exponent behind its letter: the digits behind the sign, if there are any. -/
theorem takeExponent_cons {e : Char} {sign : List Char} (he : e = 'e' ∨ e = 'E') (hsign : SignBefore sign t) :
    takeExponent (e :: (sign ++ t)) =
      if t.takeWhile Char.isDigit = [] then [] else e :: (sign ++ t.takeWhile Char.isDigit) := by
  have hshort : ¬ 1 < sign.length := by cases hsign <;> simp
  obtain ⟨signs, rest, hspan, ⟨rfl, rfl⟩ | ⟨hlong, hnone⟩⟩ := hsign.span
  · rw [takeExponent, if_pos he, hspan]
    simp [hshort]
  · rw [takeExponent, if_pos he, hspan]
    simp [hlong, hnone]

theorem exists_letter (h : t.head? = some 'e' ∨ t.head? = some 'E') :
    ∃ e u, t = e :: u ∧ (e = 'e' ∨ e = 'E') := by
  rcases h with h | h
  · obtain ⟨u, rfl⟩ := List.head?_eq_some_iff.1 h
    exact ⟨'e', u, rfl, .inl rfl⟩
  · obtain ⟨u, rfl⟩ := List.head?_eq_some_iff.1 h
    exact ⟨'E', u, rfl, .inr rfl⟩

theorem takeExponent_eq_nil {s : List Char} (h : ¬ (s.head? = some 'e' ∨ s.head? = some 'E')) : takeExponent s = [] := by
  cases s with
  | nil => rfl
  | cons e s =>
    have he : ¬ (e = 'e' ∨ e = 'E') := by simpa using h
    rw [takeExponent, if_neg he]

theorem takeExponent_prefix (t : List Char) : takeExponent t <+: t := by
  by_cases hletter : t.head? = some 'e' ∨ t.head? = some 'E'
  · obtain ⟨e, u, rfl, he⟩ := exists_letter hletter
    obtain ⟨sign, u, rfl, hsign⟩ := exists_signBefore u
    rw [takeExponent_cons he hsign]
    by_cases hnone : u.takeWhile Char.isDigit = []
    · rw [if_pos hnone]
      exact List.nil_prefix
    · rw [if_neg hnone, List.prefix_cons_inj, List.prefix_append_right_inj]
      exact List.takeWhile_prefix Char.isDigit
  · rw [takeExponent_eq_nil hletter]
    exact List.nil_prefix

/-- An exponent behind some characters ends where it ends among the bytes. -/
theorem exponentEnd_utf8 (s t : List Char) : exponentEnd (utf8 (s ++ t)) (bytes s) = bytes (s ++ takeExponent t) := by
  have hstands := standsAt_utf8 (s := s) (t := t) (c := 'e') (d := 'E') (by decide) (by decide)
  unfold exponentEnd
  by_cases hletter : t.head? = some 'e' ∨ t.head? = some 'E'
  · rw [if_pos (hstands.2 hletter)]
    obtain ⟨e, u, rfl, he⟩ := exists_letter hletter
    obtain ⟨sign, u, rfl, hsign⟩ := exists_signBefore u
    -- the scan goes on behind the letter and behind the sign
    have hone : bytes s + 1 = bytes (s ++ [e]) := by
      rcases he with rfl | rfl <;> rw [bytes_append] <;> rfl
    have hdigits : bytes s + 1 + (if standsAt (utf8 (s ++ e :: (sign ++ u))) (bytes s + 1) '+' '-' then 1 else 0) =
        bytes (s ++ e :: sign) := by
      have := hsign.length_eq (s ++ [e])
      rw [List.append_assoc, ← hone, List.singleton_append] at this
      rw [this, hone, ← bytes_append, List.append_assoc, List.singleton_append]
    have hend := digitsEnd_utf8 (s ++ e :: sign) u
    simp only [List.append_assoc, List.cons_append] at hend
    dsimp only
    rw [hdigits, hend, takeExponent_cons he hsign]
    by_cases hnone : u.takeWhile Char.isDigit = []
    · rw [hnone, if_pos rfl]
      simp
    · have hpos : 0 < bytes (u.takeWhile Char.isDigit) :=
        Nat.lt_of_lt_of_le (List.length_pos_iff.2 hnone) (length_le_bytes _)
      rw [if_neg hnone, if_pos ?_]
      simp only [bytes_append, bytes_cons]
      omega
  · rw [if_neg (mt hstands.1 hletter), takeExponent_eq_nil hletter, List.append_nil]

/-! ### Numerals -/

/-- The digits before the point, the point with the digits behind it, if there is one, and what is left. -/
inductive MantissaCut : (whole point rest : List Char) → Prop where
  | bare {whole rest : List Char} (hw : ∀ c ∈ whole, c.isDigit = true)
      (hr : ∀ c ∈ rest.head?, c.isDigit = false) (hp : rest.head? ≠ some '.') : MantissaCut whole [] rest
  | pointed {whole fs rest : List Char} (hw : ∀ c ∈ whole, c.isDigit = true)
      (hf : ∀ c ∈ fs, c.isDigit = true) (hr : ∀ c ∈ rest.head?, c.isDigit = false) :
      MantissaCut whole ('.' :: fs) rest

theorem exists_mantissaCut (t : List Char) :
    ∃ whole point rest, t = whole ++ (point ++ rest) ∧ MantissaCut whole point rest := by
  have hdigits (s : List Char) : ∃ ds rest, s = ds ++ rest ∧ (∀ c ∈ ds, c.isDigit = true) ∧
      ∀ c ∈ rest.head?, c.isDigit = false := by
    refine ⟨_, _, List.takeWhile_append_dropWhile.symm, fun c hc => List.mem_takeWhile_imp hc, ?_⟩
    intro c hc
    have := List.head?_dropWhile_not Char.isDigit s
    rw [hc] at this
    exact this
  obtain ⟨whole, rest, rfl, hw, hr⟩ := hdigits t
  by_cases hp : rest.head? = some '.'
  · obtain ⟨u, rfl⟩ := List.head?_eq_some_iff.1 hp
    obtain ⟨fs, rest, rfl, hf, hrest⟩ := hdigits u
    exact ⟨whole, '.' :: fs, rest, rfl, .pointed hw hf hrest⟩
  · exact ⟨whole, [], rest, rfl, .bare hw hr hp⟩

theorem span_isDigit {ds rest : List Char} (hd : ∀ c ∈ ds, c.isDigit = true)
    (hr : ∀ c ∈ rest.head?, c.isDigit = false) :
    (ds ++ rest).takeWhile Char.isDigit = ds ∧ (ds ++ rest).dropWhile Char.isDigit = rest := by
  rw [List.takeWhile_append_of_pos hd, List.dropWhile_append_of_pos hd]
  cases rest with
  | nil => exact ⟨List.append_nil ds, rfl⟩
  | cons c rest => simp [hr c rfl]

theorem digitsEnd_append {ds rest : List Char} (hd : ∀ c ∈ ds, c.isDigit = true)
    (hr : ∀ c ∈ rest.head?, c.isDigit = false) (s : List Char) :
    digitsEnd (utf8 (s ++ (ds ++ rest))) (bytes s) = bytes (s ++ ds) := by
  rw [digitsEnd_utf8, (span_isDigit hd hr).1]

/-- The digits and the point end where they end among the bytes. -/
theorem MantissaCut.end_utf8 {whole point rest : List Char} (h : MantissaCut whole point rest) (s : List Char) :
    mantissaEnd? (utf8 (s ++ (whole ++ (point ++ rest)))) (bytes s) =
      if whole = [] ∧ point.length ≤ 1 then none else some (bytes (s ++ (whole ++ point))) := by
  have hwhole {ds : List Char} : bytes (s ++ ds) = bytes s ↔ ds = [] := by
    refine ⟨fun hb => ?_, fun hd => by rw [hd, List.append_nil]⟩
    have := length_le_bytes ds
    rw [bytes_append] at hb
    exact List.length_eq_zero_iff.1 (by omega)
  have hpoint := standsAt_utf8 (s := s ++ whole) (t := point ++ rest) (c := '.') (d := '.') (by decide) (by decide)
  rw [List.append_assoc, or_self] at hpoint
  unfold mantissaEnd?
  cases h with
  | bare hw hr hp =>
    rw [List.nil_append] at hpoint ⊢
    dsimp only
    rw [digitsEnd_append hw hr, if_neg (mt hpoint.1 hp), List.append_nil]
    refine if_congr ?_ rfl rfl
    rw [hwhole]
    refine and_congr_right fun hnil => ?_
    simp [hnil]
  | @pointed fs _ hw hf hr =>
    have hone : bytes (s ++ whole) + 1 = bytes (s ++ (whole ++ ['.'])) := by
      rw [← List.append_assoc, bytes_append (s ++ whole)]
      rfl
    have hlast := digitsEnd_append hf hr (s ++ (whole ++ ['.']))
    simp only [List.append_assoc, List.singleton_append] at hlast
    dsimp only
    rw [digitsEnd_append hw (by simp), if_pos (hpoint.2 rfl), hone, List.cons_append, hlast]
    refine if_congr ?_ rfl rfl
    rw [hwhole]
    refine and_congr_right fun hnil => ?_
    rw [hnil, List.nil_append, bytes_append, bytes_cons, bytes_of_isDigit hf, List.length_cons]
    change _ + (1 + fs.length) ≤ _ ↔ _
    omega

/-- The longest numeral, part by part. -/
theorem MantissaCut.takeNumeral? {sign whole point rest : List Char} (h : MantissaCut whole point rest)
    (hsign : SignBefore sign (whole ++ (point ++ rest))) :
    takeNumeral? (sign ++ (whole ++ (point ++ rest))) =
      if whole = [] ∧ point.length ≤ 1 then none else some (sign ++ (whole ++ point) ++ takeExponent rest) := by
  unfold Number.takeNumeral?
  split
  next sign' t heq =>
  obtain ⟨rfl, rfl⟩ : sign' = sign ∧ t = whole ++ (point ++ rest) := by
    cases hsign with
    | plus | minus =>
      cases heq
      exact ⟨rfl, rfl⟩
    | absent hs =>
      rw [List.nil_append] at heq
      split at heq
      · next ht => exact absurd (.inr (congrArg List.head? ht)) hs
      · next ht => exact absurd (.inl (congrArg List.head? ht)) hs
      · cases heq
        exact ⟨rfl, rfl⟩
  rw [List.span_eq_takeWhile_dropWhile]
  cases h with
  | bare hw hr hp =>
    rw [List.nil_append, (span_isDigit hw hr).1, (span_isDigit hw hr).2]
    dsimp only
    split
    · exact absurd rfl hp
    · simp
  | pointed hw hf hr =>
    rw [List.cons_append, (span_isDigit hw (by simp)).1, (span_isDigit hw (by simp)).2]
    dsimp only
    split
    · next heq =>
      cases heq
      simp [(span_isDigit hf hr).1, (span_isDigit hf hr).2]
    · next hno => exact absurd rfl (hno _)

/-- The longest numeral is what the text starts with. -/
theorem takeNumeral?_prefix {s numeral : List Char} (h : takeNumeral? s = some numeral) : numeral <+: s := by
  obtain ⟨sign, t, rfl, hsign⟩ := exists_signBefore s
  obtain ⟨whole, point, rest, rfl, hcut⟩ := exists_mantissaCut t
  rw [hcut.takeNumeral? hsign] at h
  split at h
  · cases h
  · cases h
    rw [List.append_assoc, List.append_assoc, List.prefix_append_right_inj, List.prefix_append_right_inj,
      List.prefix_append_right_inj]
    exact takeExponent_prefix rest

/-- The scan of the bytes ends where the numeral ends that the characters give. -/
theorem numeralEnd?_utf8 (s : List Char) : numeralEnd? (utf8 s) = (takeNumeral? s).map bytes := by
  obtain ⟨sign, t, rfl, hsign⟩ := exists_signBefore s
  obtain ⟨whole, point, rest, rfl, hcut⟩ := exists_mantissaCut t
  have hstart := hsign.length_eq []
  rw [List.nil_append, bytes_nil] at hstart
  rw [numeralEnd?, hstart, hcut.end_utf8, hcut.takeNumeral? hsign]
  by_cases hnone : whole = [] ∧ point.length ≤ 1
  · rw [if_pos hnone, if_pos hnone]
    rfl
  · rw [if_neg hnone, if_neg hnone, Option.map_some, Option.map_some]
    have hlast := exponentEnd_utf8 (sign ++ (whole ++ point)) rest
    simp only [List.append_assoc] at hlast ⊢
    rw [hlast]

end Characters

end LiveNotes.Number
