import LiveNotes.Number.Double

/-!
The fewest decimal digits that read back as a given double. For one digit, two digits and so on the
two multiples of a power of ten around the double are tried; the first number of digits with a hit
wins, and of two hits the nearer one. Which of two equally near ones wins is up to the format.
-/

namespace LiveNotes.Number

/-- The number `digits * 10 ^ exponent`. -/
structure Numeral where
  digits : Nat
  exponent : Int
deriving Repr, DecidableEq

/-- Which of two equally near numerals is taken: the larger one, or the one with an even last digit. -/
inductive Tie where
  | larger
  | even
deriving Repr, DecidableEq

/-- Digits without the zeros at their end; `room` bounds how many are taken off. -/
def stripZeros (room : Nat) (n : Numeral) : Numeral :=
  match room with
  | 0 => n
  | room + 1 =>
    if n.digits ≠ 0 ∧ n.digits % 10 = 0 then stripZeros room ⟨n.digits / 10, n.exponent + 1⟩ else n

namespace Shortest

/-- A positive double with the open or closed interval of the numbers that read back as it, all as
numerators over one denominator. -/
structure Target where
  low : Nat
  value : Nat
  high : Nat
  den : Nat
  closed : Bool

/-- The target of the double `mantissa * 2 ^ exponent`. -/
def target (mantissa : Nat) (exponent : Int) : Target :=
  let below := if mantissa = twoTo 52 ∧ -1074 < exponent then 1 else 2
  let (value, den) := Double.shifted (4 * mantissa) 1 (exponent - 2)
  let (gap, _) := Double.shifted 1 1 (exponent - 2)
  ⟨value - below * gap, value, value + 2 * gap, den, mantissa % 2 == 0⟩

/-- Whether `num / t.den` reads back as the target. -/
def Target.contains (t : Target) (num : Nat) : Bool :=
  if t.closed then t.low ≤ num && num ≤ t.high else t.low < num && num < t.high

/-- The numerators of the target after multiplication with `10 ^ shift`, for either side. -/
def Target.scale (t : Target) (shift : Int) : Target :=
  if 0 ≤ shift then
    let p := tenTo shift.toNat
    ⟨t.low * p, t.value * p, t.high * p, t.den, t.closed⟩
  else ⟨t.low, t.value, t.high, t.den * tenTo (-shift).toNat, t.closed⟩

/-- The better of the two neighbours of the target on the grid of the multiples of `10 ^ exponent`,
if one reads back. -/
def onGrid? (tie : Tie) (t : Target) (exponent : Int) : Option Numeral :=
  let s := t.scale (-exponent)
  let down := s.value / s.den
  let up := if s.value % s.den = 0 then down else down + 1
  match s.contains (down * s.den), s.contains (up * s.den) with
  | false, false => none
  | true, false => some ⟨down, exponent⟩
  | false, true => some ⟨up, exponent⟩
  | true, true =>
    let gapDown := s.value - down * s.den
    let gapUp := up * s.den - s.value
    if gapDown < gapUp ∨ (gapDown = gapUp ∧ tie = .even ∧ down % 2 = 0) then some ⟨down, exponent⟩
    else some ⟨up, exponent⟩

/-- The number of digits before the point, which is negative for zeros behind it. -/
def magnitude (t : Target) : Int :=
  let guess : Int := ((t.value.log2 : Int) - t.den.log2 - 1) * 30103 / 100000
  let fits (e : Int) : Bool :=
    let s := t.scale (-e)
    s.value < s.den
  if fits guess then guess
  else if fits (guess + 1) then guess + 1
  else if fits (guess + 2) then guess + 2
  else guess + 3

/-- The first hit with at least `count` digits, trying `room` more counts. -/
def search (tie : Tie) (t : Target) (size : Int) : (count room : Nat) → Numeral
  | count, 0 => (onGrid? tie t (size - count)).getD ⟨0, 0⟩
  | count, room + 1 =>
    match onGrid? tie t (size - count) with
    | some n => n
    | none => search tie t size (count + 1) room

/-- The fewest digits that read back as a positive double. -/
def digits (tie : Tie) (mantissa : Nat) (exponent : Int) : Numeral :=
  let t := target mantissa exponent
  stripZeros 20 (search tie t (magnitude t) 1 17)

end Shortest

end LiveNotes.Number
