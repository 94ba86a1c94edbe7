import LiveNotes.Proofs.Number.Whole
import LiveNotes.Value.Arith

/-!
Arithmetic on values: what kind of value it gives, and how far it is exact on whole numbers of 64 bits.
A result that fits is found as it is. One that does not is computed again on doubles; the operands
lose all but 53 of their bits there, and what comes out of the rounded ones can fit after all.

* `isNumber_arith`, `exists_arith?`: numbers have sums, differences and products, which are numbers;
* `Arith.IsExact`: the exact result of an operator;
* `arithFloats?_ofInteger`: what is computed on the rounded operands;
* `Arith.Misses`: the overflows that come out as whole numbers;
* `arith?_integers`: a whole number is the exact result, unless the operator misses.
-/

namespace LiveNotes

open Number

namespace Value

/-! ### Numbers from numbers -/

theorem isNumber_arithFloats {op : Arith} {x y : Float} {v : Value} (h : arithFloats? op x y = some v) :
    v.isNumber = true := by
  unfold arithFloats? at h
  dsimp only at h
  split at h
  · cases h
  · split at h <;> cases h
    · unfold ofDecimal
      split <;> rfl
    · rfl

theorem isNumber_arith {op : Arith} {a b v : Value} (h : arith? op a b = some v) :
    v.isNumber = true := by
  unfold arith? at h
  split at h
  · unfold arithIntegers? at h
    repeat' split at h
    all_goals first
      | exact isNumber_arithFloats h
      | cases h <;> rfl
  · split at h
    · exact isNumber_arithFloats h
    · cases h

section Total

variable {op : Arith} (hop : op.divides = false)
include hop

theorem exists_arithFloats? (x y : Float) : ∃ v, arithFloats? op x y = some v := by
  unfold arithFloats?
  rw [hop, if_neg (by simp)]
  dsimp only
  split <;> exact ⟨_, rfl⟩

theorem exists_arithIntegers? (a b : Int64) : ∃ v, arithIntegers? op a b = some v := by
  unfold arithIntegers?
  rw [hop, if_neg (by simp)]
  split
  · split
    · exact ⟨_, rfl⟩
    · exact exists_arithFloats? hop _ _
  · exact ⟨_, rfl⟩

/-- An operator without division has a result for any two numbers. -/
theorem exists_arith? {a b : Value} (ha : a.isNumber = true) (hb : b.isNumber = true) :
    ∃ v, arith? op a b = some v ∧ v.isNumber = true := by
  suffices h : ∃ v, arith? op a b = some v by
    obtain ⟨v, hv⟩ := h
    exact ⟨v, hv, isNumber_arith hv⟩
  cases a with
  | integer a =>
    cases b with
    | integer b => exact exists_arithIntegers? hop a b
    | float y => exact exists_arithFloats? hop _ _
    | _ => cases hb
  | float x =>
    cases b with
    | integer b => exact exists_arithFloats? hop _ _
    | float y => exact exists_arithFloats? hop _ _
    | _ => cases hb
  | _ => cases ha

end Total

end Value

/-! ### Exact results -/

/-- `r` is the exact result: the sum, the difference or the product, the quotient of a division that
leaves no remainder, or the remainder, which is smaller than the divisor and has the sign of the
dividend. -/
def Arith.IsExact : Arith → (a b r : Int) → Prop
  | .add, a, b, r => r = a + b
  | .subtract, a, b, r => r = a - b
  | .multiply, a, b, r => r = a * b
  | .divide, a, b, r => b ≠ 0 ∧ b * r = a
  | .remainder, a, b, r => b ≠ 0 ∧ r.natAbs < b.natAbs ∧ b ∣ a - r ∧ 0 ≤ a * r

namespace Arith

instance : (op : Arith) → (a b r : Int) → Decidable (op.IsExact a b r)
  | .add, a, b, r => inferInstanceAs (Decidable (r = a + b))
  | .subtract, a, b, r => inferInstanceAs (Decidable (r = a - b))
  | .multiply, a, b, r => inferInstanceAs (Decidable (r = a * b))
  | .divide, a, b, r => inferInstanceAs (Decidable (b ≠ 0 ∧ b * r = a))
  | .remainder, a, b, r =>
    inferInstanceAs (Decidable (b ≠ 0 ∧ r.natAbs < b.natAbs ∧ b ∣ a - r ∧ 0 ≤ a * r))

/-- A remainder is determined by its size and its sign. -/
theorem isExact_remainder_iff {a b r : Int} (hb : b ≠ 0) :
    IsExact .remainder a b r ↔ a.tmod b = r := by
  constructor
  · rintro ⟨-, hlt, ⟨q, hq⟩, hsign⟩
    rcases Int.lt_trichotomy a 0 with ha | rfl | ha
    · have hr : r ≤ 0 := nonpos_of_mul_nonneg_right hsign ha
      exact ((Int.tdiv_tmod_unique' ha.le hb).2 ⟨by rw [← hq]; omega, by omega, hr⟩).2
    · have hr : r = 0 :=
        Int.eq_zero_of_dvd_of_natAbs_lt_natAbs (Int.dvd_neg.1 ⟨q, by rw [← hq]; omega⟩) hlt
      rw [hr, Int.zero_tmod]
    · have hr : 0 ≤ r := nonneg_of_mul_nonneg_right hsign ha
      exact ((Int.tdiv_tmod_unique ha.le hb).2 ⟨by rw [← hq]; omega, hr, by omega⟩).2
  · rintro rfl
    rcases Int.le_total 0 a with ha | ha
    · obtain ⟨hq, hr, hlt⟩ := (Int.tdiv_tmod_unique ha hb).1 ⟨rfl, rfl⟩
      exact ⟨hb, by omega, ⟨a.tdiv b, by omega⟩, Int.mul_nonneg ha hr⟩
    · obtain ⟨hq, hlt, hr⟩ := (Int.tdiv_tmod_unique' ha hb).1 ⟨rfl, rfl⟩
      exact ⟨hb, by omega, ⟨a.tdiv b, by omega⟩, Int.mul_nonneg_of_nonpos_of_nonpos ha hr⟩

/-- The exact result is what is computed. -/
theorem onIntegers?_eq_some {op : Arith} {a b r : Int} :
    op.onIntegers? a b = some r ↔ op.IsExact a b r := by
  cases op with
  | add => exact Option.some_inj.trans eq_comm
  | subtract => exact Option.some_inj.trans eq_comm
  | multiply => exact Option.some_inj.trans eq_comm
  | divide =>
    unfold onIntegers? IsExact
    dsimp only
    constructor
    · intro h
      split at h
      · rename_i hdiv
        cases h
        exact ⟨hdiv.1, Int.mul_tdiv_cancel_of_tmod_eq_zero hdiv.2⟩
      · cases h
    · rintro ⟨hb, rfl⟩
      rw [if_pos ⟨hb, Int.mul_tmod_right b r⟩, Int.mul_tdiv_cancel_left r hb]
  | remainder =>
    by_cases hb : b = 0
    · subst hb
      simp [onIntegers?, IsExact]
    · rw [isExact_remainder_iff hb]
      unfold onIntegers?
      simp [hb]

/-- Decimals of integers are computed with exactly, up to their capacity. -/
theorem exists_onDecimals? {op : Arith} (hop : op.divides = false) (a b : Int) :
    ∃ n, op.onIntegers? a b = some n ∧ op.onDecimals? (.ofInt a) (.ofInt b) =
      if n.natAbs < Decimal.capacity then some (.ofInt n) else none := by
  cases op with
  | add => exact ⟨_, rfl, Decimal.add?_ofInt a b⟩
  | subtract => exact ⟨_, rfl, Decimal.sub?_ofInt a b⟩
  | multiply => exact ⟨_, rfl, Decimal.mul?_ofInt a b⟩
  | divide => cases hop
  | remainder => cases hop

theorem IsExact.unique {op : Arith} {a b m n : Int} (hm : op.IsExact a b m) (hn : op.IsExact a b n) :
    m = n :=
  Option.some.inj ((onIntegers?_eq_some.2 hm).symm.trans (onIntegers?_eq_some.2 hn))

/-- A remainder is smaller than the divisor, and a quotient is smaller than the dividend unless one
divides by one or minus one. -/
theorem IsExact.fits_of_divides {op : Arith} (hop : op.divides = true) {a b : Int64} {n : Int}
    (h : op.IsExact a.toInt b.toInt n) (hn : ¬ (minInteger ≤ n ∧ n ≤ maxInteger)) :
    op = .divide ∧ a.toInt = minInteger ∧ b.toInt = -1 := by
  have ha := Int64.le_toInt a
  have ha' := Int64.toInt_lt a
  have hb := Int64.le_toInt b
  have hb' := Int64.toInt_lt b
  unfold minInteger maxInteger at *
  cases op with
  | remainder =>
    obtain ⟨-, hlt, -⟩ := h
    omega
  | divide =>
    obtain ⟨hzero, hmul⟩ := h
    by_cases hone : b.toInt = 1
    · rw [hone] at hmul
      omega
    · by_cases hminus : b.toInt = -1
      · rw [hminus] at hmul
        exact ⟨rfl, by omega, hminus⟩
      · have hle : 2 * n.natAbs ≤ a.toInt.natAbs := by
          rw [← hmul, Int.natAbs_mul]
          exact Nat.mul_le_mul_right _ (by omega)
        omega
  | _ => cases hop

end Arith

namespace Value

theorem ofDecimal_ofInt {n : Int} {r : Int64} : ofDecimal (.ofInt n) = .integer r ↔ r.toInt = n := by
  have hwhole : (Decimal.ofInt n).isWhole = true := by
    unfold Decimal.isWhole
    exact beq_iff_eq.2 (Nat.mod_one _)
  have hfit : (Decimal.ofInt n).toInteger? = fit? n := by
    unfold Decimal.toInteger? Decimal.ofInt
    dsimp only
    rw [show tenTo 0 = 1 from rfl, Nat.div_one]
    congr 1
    by_cases hn : n < 0
    · rw [decide_eq_true hn, if_pos rfl]
      omega
    · rw [decide_eq_false hn, if_neg (by decide)]
      omega
  unfold ofDecimal
  rw [hwhole, if_pos rfl, hfit, ← fit?_eq_some]
  cases fit? n with
  | none => simp
  | some m => simp

/-- On doubles, the exact result is the one on the rounded operands. -/
theorem arithFloats?_ofInteger {op : Arith} (hop : op.divides = false) {a b r : Int64} :
    arithFloats? op (Double.ofInteger a) (Double.ofInteger b) = some (.integer r) ↔
      op.IsExact (nearestDouble a.toInt) (nearestDouble b.toInt) r.toInt := by
  obtain ⟨n, hn, hdecimal⟩ := Arith.exists_onDecimals? hop (nearestDouble a.toInt) (nearestDouble b.toInt)
  have hsize : r.toInt.natAbs < Decimal.capacity := by
    have := Int64.le_toInt r
    have := Int64.toInt_lt r
    exact Decimal.lt_capacity_of_le (by omega)
  rw [← Arith.onIntegers?_eq_some, hn, Option.some_inj]
  unfold arithFloats?
  rw [hop, if_neg (by simp), Decimal.ofFloat?_ofInteger, Decimal.ofFloat?_ofInteger]
  dsimp only [Option.bind_eq_bind, Option.bind_some]
  rw [hdecimal]
  by_cases hcapacity : n.natAbs < Decimal.capacity
  · rw [if_pos hcapacity, Option.some_inj, ofDecimal_ofInt, eq_comm]
  · rw [if_neg hcapacity]
    constructor
    · intro h
      cases h
    · rintro rfl
      exact absurd hsize hcapacity

/-- An exact result that fits is found. -/
theorem arith?_of_isExact {op : Arith} {a b r : Int64} (h : op.IsExact a.toInt b.toInt r.toInt) :
    arith? op (.integer a) (.integer b) = some (.integer r) := by
  have hzero : (op.divides && b == 0) = false := by
    cases op with
    | add => rfl
    | subtract => rfl
    | multiply => rfl
    | divide =>
      have : b ≠ 0 := fun hb => h.1 (by rw [hb]; rfl)
      simpa [Arith.divides] using this
    | remainder =>
      have : b ≠ 0 := fun hb => h.1 (by rw [hb]; rfl)
      simpa [Arith.divides] using this
  change arithIntegers? op a b = _
  unfold arithIntegers?
  rw [hzero, if_neg (by simp), Arith.onIntegers?_eq_some.2 h]
  dsimp only
  rw [fit?_eq_some.2 rfl]

/-- The least number divided by minus one is no whole number of 64 bits on doubles either. -/
theorem arithFloats?_least {a b r : Int64} (ha : a.toInt = minInteger) (hb : b.toInt = -1) :
    arithFloats? .divide (Double.ofInteger a) (Double.ofInteger b) ≠ some (.integer r) := by
  have hdecimal : (Decimal.ofInt (nearestDouble minInteger)).div? (.ofInt (nearestDouble (-1))) =
      some (.ofInt 9223372036854775808) := by decide +kernel
  intro h
  unfold arithFloats? at h
  split at h
  · cases h
  · rw [Decimal.ofFloat?_ofInteger, Decimal.ofFloat?_ofInteger, ha, hb] at h
    dsimp only [Option.bind_eq_bind, Option.bind_some, Arith.onDecimals?] at h
    rw [hdecimal] at h
    have hr := ofDecimal_ofInt.1 (Option.some.inj h)
    have := Int64.toInt_lt r
    omega

/-- A division gives no whole number of 64 bits but the exact one. -/
theorem isExact_of_divides {op : Arith} (hop : op.divides = true) {a b r : Int64}
    (h : arith? op (.integer a) (.integer b) = some (.integer r)) :
    op.IsExact a.toInt b.toInt r.toInt := by
  change arithIntegers? op a b = _ at h
  unfold arithIntegers? at h
  split at h
  · cases h
  · split at h
    · rename_i n hn
      have hexact := Arith.onIntegers?_eq_some.1 hn
      split at h
      · rename_i hfit
        cases h
        rw [fit?_eq_some.1 hfit]
        exact hexact
      · rename_i hfit
        have hover : ¬ (minInteger ≤ n ∧ n ≤ maxInteger) := fun hn => by
          rw [fit?, if_pos hn] at hfit
          cases hfit
        obtain ⟨rfl, ha, hb⟩ := hexact.fits_of_divides hop hover
        exact absurd h (arithFloats?_least ha hb)
    · cases h

/-- When a whole number comes out: it is the exact result, or there is none of 64 bits and it is the
exact result on the rounded operands. -/
theorem arith?_eq_integer {op : Arith} {a b r : Int64} :
    arith? op (.integer a) (.integer b) = some (.integer r) ↔
      op.IsExact a.toInt b.toInt r.toInt ∨
        op.divides = false ∧ (∀ s : Int64, ¬ op.IsExact a.toInt b.toInt s.toInt) ∧
          op.IsExact (nearestDouble a.toInt) (nearestDouble b.toInt) r.toInt := by
  by_cases hexact : ∃ s : Int64, op.IsExact a.toInt b.toInt s.toInt
  · obtain ⟨s, hs⟩ := hexact
    rw [arith?_of_isExact hs]
    constructor
    · intro h
      cases h
      exact .inl hs
    · rintro (h | ⟨-, h, -⟩)
      · rw [Int64.toInt_inj.1 (hs.unique h)]
      · exact absurd hs (h s)
  · have hno : ∀ s : Int64, ¬ op.IsExact a.toInt b.toInt s.toInt := fun s hs => hexact ⟨s, hs⟩
    cases hop : op.divides with
    | true =>
      refine iff_of_false (fun h => hno r (isExact_of_divides hop h)) ?_
      rintro (h | ⟨h, -⟩)
      · exact hno r h
      · cases h
    | false =>
      obtain ⟨n, hn, -⟩ := Arith.exists_onDecimals? hop a.toInt b.toInt
      have hfit : fit? n = none := by
        refine Option.eq_none_iff_forall_ne_some.2 fun s hs => hno s ?_
        rw [fit?_eq_some.1 hs]
        exact Arith.onIntegers?_eq_some.1 hn
      change arithIntegers? op a b = _ ↔ _
      unfold arithIntegers?
      rw [hop, if_neg (by simp), hn]
      dsimp only
      rw [hfit]
      dsimp only
      rw [arithFloats?_ofInteger hop]
      exact ⟨fun h => .inr ⟨rfl, hno, h⟩, fun h => h.elim (fun h => absurd h (hno r)) (·.2.2)⟩

end Value

/-- An overflow that the operator misses: the exact result has more than 64 bits, and the one on the
operands rounded to 53 bits has not. -/
def Arith.Misses (op : Arith) (a b : Int) : Prop :=
  op.divides = false ∧ (∀ r : Int64, ¬ op.IsExact a b r.toInt) ∧
    ∃ r : Int64, op.IsExact (nearestDouble a) (nearestDouble b) r.toInt

/-- Operands that are doubles are not rounded. -/
theorem Arith.not_misses {op : Arith} {a b : Int} (ha : nearestDouble a = a) (hb : nearestDouble b = b) :
    ¬ op.Misses a b := by
  rintro ⟨-, hno, r, hr⟩
  rw [ha, hb] at hr
  exact hno r hr

/-- No overflow is missed below 53 bits. -/
theorem Arith.not_misses_of_natAbs_lt {op : Arith} {a b : Int} (ha : a.natAbs < 2 ^ 53)
    (hb : b.natAbs < 2 ^ 53) : ¬ op.Misses a b :=
  not_misses (nearestDouble_of_natAbs_lt ha) (nearestDouble_of_natAbs_lt hb)

/-- **Exactness on whole numbers.** An exact result of 64 bits is what comes out. Conversely a whole
number that comes out is the exact result, precisely if the operator does not miss an overflow of these
operands. -/
theorem Value.arith?_integers (op : Arith) (a b : Int64) :
    (∀ r : Int64, op.IsExact a.toInt b.toInt r.toInt →
      arith? op (.integer a) (.integer b) = some (.integer r)) ∧
    ((∀ r : Int64, arith? op (.integer a) (.integer b) = some (.integer r) →
      op.IsExact a.toInt b.toInt r.toInt) ↔ ¬ op.Misses a.toInt b.toInt) := by
  refine ⟨fun r => arith?_of_isExact, fun h hmiss => ?_, fun hmiss r h => ?_⟩
  · obtain ⟨hop, hno, r, hr⟩ := hmiss
    exact hno r (h r (arith?_eq_integer.2 (.inr ⟨hop, hno, hr⟩)))
  · rcases arith?_eq_integer.1 h with h | ⟨hop, hno, hr⟩
    · exact h
    · exact absurd ⟨hop, hno, r, hr⟩ hmiss

/-- Twice a number just below half of the least one: the product is less than the least number, but the
factor is rounded to half of it. -/
theorem Value.arith?_multiply_rounded :
    arith? .multiply (.integer (-4611686018427387905)) (.integer 2) =
        some (.integer (-9223372036854775808)) ∧
      ¬ Arith.IsExact .multiply (-4611686018427387905) 2 (-9223372036854775808) := by
  have ha : (-4611686018427387905 : Int64).toInt = -4611686018427387905 := rfl
  have hb : (2 : Int64).toInt = 2 := rfl
  have hr : (-9223372036854775808 : Int64).toInt = -9223372036854775808 := rfl
  have hrounded : nearestDouble (-4611686018427387905) = -4611686018427387904 ∧ nearestDouble 2 = 2 := by
    decide +kernel
  refine ⟨arith?_eq_integer.2 (.inr ⟨rfl, fun s hs => ?_, ?_⟩), by decide⟩
  · rw [ha, hb] at hs
    have hle := Int64.le_toInt s
    change s.toInt = _ at hs
    omega
  · rw [ha, hb, hr, hrounded.1, hrounded.2]
    decide

end LiveNotes
