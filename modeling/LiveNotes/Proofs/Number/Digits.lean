import Mathlib.Data.Nat.Digits.Defs
import LiveNotes.Number.Integer
import LiveNotes.Number.Numeral
import LiveNotes.Proofs.Text.Blank

/-!
Digits of a radix and the numbers that they spell.

* `DigitsOf radix ds n`: the digits `ds` stand for `n`, letters in either case, with any zeros in front;
* `takeDigits_append`: digits are taken as far as they go;
* `radixDigits`, `digitsOf_radixDigits`: every number has digits in every radix up to 36;
* `digitsOf_toDigits`: decimal digits are those of the radix ten.
-/

namespace LiveNotes.Number

/-- The characters are digits of a radix, at least one, and stand for a number. -/
structure DigitsOf (radix : Nat) (ds : List Char) (n : Nat) : Prop where
  ne_nil : ds ≠ []
  digits : ∀ c ∈ ds, (digit? radix c).isSome = true
  value : radixValue radix (takeDigits radix ds) = n

section Digits

variable {radix d : Nat} {c : Char} {ds s : List Char}

/-- The digits of all radixes are letters and digits of ASCII. -/
theorem isAlphanum_of_digit? (h : digit? radix c = some d) : c.isAlphanum = true := by
  rw [Text.isAlphanum_iff]
  unfold digit? at h
  dsimp only at h
  split_ifs at h <;> omega

theorem lt_of_digit? (h : digit? radix c = some d) : d < radix := by
  unfold digit? at h
  dsimp only at h
  split_ifs at h <;> cases h <;> assumption

/-- A digit of one radix is a digit of every other that is above its value. -/
theorem digit?_of_lt {radix' : Nat} (h : digit? radix c = some d) (hd : d < radix') :
    digit? radix' c = some d := by
  unfold digit? at *
  dsimp only at *
  split_ifs at * <;> first | assumption | simp_all <;> omega

theorem digit?_of_isDigit (hc : c.isDigit = true) : digit? 10 c = some (c.toNat - '0'.toNat) := by
  have h : 48 ≤ c.toNat ∧ c.toNat ≤ 57 := Char.isDigit_iff_toNat.1 hc
  have hlt : c.toNat - 48 < 10 := by omega
  unfold digit?
  simp only [if_pos h, if_pos hlt]
  rfl

theorem takeDigits_cons (h : digit? radix c = some d) (s : List Char) :
    takeDigits radix (c :: s) = d :: takeDigits radix s := by
  rw [takeDigits, h]

/-- Digits are taken up to the first character that is none. -/
theorem takeDigits_append (hds : ∀ c ∈ ds, (digit? radix c).isSome = true)
    (hs : ∀ c ∈ s.head?, digit? radix c = none) : takeDigits radix (ds ++ s) = takeDigits radix ds := by
  induction ds with
  | nil =>
    cases s with
    | nil => rfl
    | cons c s =>
      have hc : digit? radix c = none := hs c rfl
      simp only [List.nil_append, takeDigits, hc]
  | cons c ds ih =>
    obtain ⟨d, hd⟩ := Option.isSome_iff_exists.1 (hds c List.mem_cons_self)
    rw [List.cons_append, takeDigits_cons hd, takeDigits_cons hd,
      ih fun c hc => hds c (List.mem_cons_of_mem _ hc)]

end Digits

/-! ### Every number has digits -/

/-- The digit of a value, a small letter behind nine. -/
def digitChar (d : Nat) : Char := Char.ofNat (if d < 10 then 48 + d else 87 + d)

/-- The digits of a number without zeros in front. -/
def radixDigits (radix n : Nat) : List Char :=
  if n = 0 then ['0'] else (Nat.digits radix n).reverse.map digitChar

theorem digit?_digitChar {radix d : Nat} (hr : radix ≤ 36) (hd : d < radix) :
    digit? radix (digitChar d) = some d := by
  have hlargest : ∀ d < 36, digit? 36 (digitChar d) = some d := by decide +kernel
  exact digit?_of_lt (hlargest d (Nat.lt_of_lt_of_le hd hr)) hd

theorem takeDigits_digitChar {radix : Nat} (hr : radix ≤ 36) {ds : List Nat} (hds : ∀ d ∈ ds, d < radix) :
    takeDigits radix (ds.map digitChar) = ds := by
  induction ds with
  | nil => rfl
  | cons d ds ih =>
    rw [List.map_cons, takeDigits_cons (digit?_digitChar hr (hds d List.mem_cons_self)),
      ih fun d hd => hds d (List.mem_cons_of_mem _ hd)]

theorem radixValue_reverse (radix : Nat) (ds : List Nat) :
    radixValue radix ds.reverse = Nat.ofDigits radix ds := by
  rw [radixValue, List.foldl_reverse, Nat.ofDigits_eq_foldr]
  refine congrArg (List.foldr · 0 ds) (funext fun d => funext fun n => ?_)
  rw [Nat.cast_id, Nat.add_comm, Nat.mul_comm]

/-- The digits of a number spell it. -/
theorem digitsOf_radixDigits {radix : Nat} (h : 2 ≤ radix) (hr : radix ≤ 36) (n : Nat) :
    DigitsOf radix (radixDigits radix n) n := by
  unfold radixDigits
  split
  · next hn =>
    have hchar : digitChar 0 = '0' := rfl
    have hzero : digit? radix '0' = some 0 := hchar ▸ digit?_digitChar hr (Nat.lt_of_lt_of_le Nat.zero_lt_two h)
    have hdigit : (digit? radix '0').isSome = true := by rw [hzero, Option.isSome_some]
    refine ⟨nofun, List.forall_mem_singleton.2 hdigit, ?_⟩
    rw [takeDigits_cons hzero, hn]
    simp [takeDigits, radixValue]
  · next hn =>
    have hbelow : ∀ d ∈ (Nat.digits radix n).reverse, d < radix :=
      fun d hd => Nat.digits_lt_base h (List.mem_reverse.1 hd)
    have hne : Nat.digits radix n ≠ [] := Nat.digits_ne_nil_iff_ne_zero.2 hn
    refine ⟨by simpa using hne, List.forall_mem_map.2 fun d hd => ?_, ?_⟩
    · rw [digit?_digitChar hr (hbelow d hd)]
      rfl
    · rw [takeDigits_digitChar hr hbelow, radixValue_reverse, Nat.ofDigits_digits]

/-- Decimal digits have the value that they have in the radix ten. -/
theorem radixValue_ten {ds : List Char} (hds : ∀ c ∈ ds, c.isDigit = true) (n : Nat) :
    (takeDigits 10 ds).foldl (fun n d => n * 10 + d) n = Nat.ofDigitChars 10 ds n := by
  induction ds generalizing n with
  | nil => rfl
  | cons c ds ih =>
    rw [takeDigits_cons (digit?_of_isDigit (hds c List.mem_cons_self)), Nat.ofDigitChars_cons,
      ← ih fun c hc => hds c (List.mem_cons_of_mem _ hc), Nat.mul_comm 10]
    rfl

/-- The decimal digits of a number spell it in the radix ten. -/
theorem digitsOf_toDigits (n : Nat) : DigitsOf 10 (Nat.toDigits 10 n) n := by
  have hdigit : ∀ c ∈ Nat.toDigits 10 n, c.isDigit = true :=
    fun _ => Nat.isDigit_of_mem_toDigits (by decide) (by decide)
  refine ⟨Nat.toDigits_ne_nil, fun c hc => ?_, ?_⟩
  · rw [digit?_of_isDigit (hdigit c hc)]
    rfl
  · exact (radixValue_ten hdigit 0).trans Nat.ofDigitChars_ten_toDigits

/-- The decimal text of an integer: a minus if it is negative, and digits. -/
theorem intRepr_toList (n : Int) :
    n.repr.toList = (if decide (n < 0) then ['-'] else []) ++ Nat.toDigits 10 n.natAbs := by
  cases n with
  | ofNat n =>
    have hn : ¬ Int.ofNat n < 0 := Int.not_lt.2 (Int.natCast_nonneg n)
    rw [decide_eq_false hn, Int.repr, Nat.repr_eq_ofList_toDigits, String.toList_ofList]
    rfl
  | negSucc n =>
    rw [decide_eq_true (Int.negSucc_lt_zero n), Int.repr, Nat.repr_eq_ofList_toDigits]
    simp

end LiveNotes.Number
