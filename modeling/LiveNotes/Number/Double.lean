import LiveNotes.Number.Integer
import LiveNotes.Number.Power
import LiveNotes.Number.Rounding

/-!
Doubles as exact numbers: a finite double is a sign and `mantissa * 2 ^ exponent`, and every
quotient of natural numbers has a nearest double.

* `decode?` takes a finite double apart;
* `ofRatio`, `ofInteger`, `ofDecimal` give the nearest double, ties to even;
* `toInteger` cuts a double to a whole number of 64 bits;
* `remainder` is exact, with the sign of the dividend.
-/

namespace LiveNotes.Number

/-- A finite double, taken apart. -/
structure Dyadic where
  negative : Bool
  mantissa : Nat
  exponent : Int
deriving Repr, DecidableEq

namespace Double

/-- The parts of a finite double. -/
def decode? (x : Float) : Option Dyadic :=
  let bits := x.toBits.toNat
  let negative := twoTo 63 ≤ bits
  let field : Nat := bits / twoTo 52 % twoTo 11
  let fraction : Nat := bits % twoTo 52
  if field = 2047 then none
  else if field = 0 then some ⟨negative, fraction, -1074⟩
  else some ⟨negative, twoTo 52 + fraction, field - 1075⟩

/-- `num * 2 ^ shift`, for a shift to either side, as a quotient. -/
def shifted (num den : Nat) (shift : Int) : Nat × Nat :=
  if 0 ≤ shift then (num * twoTo shift.toNat, den) else (num, den * twoTo (-shift).toNat)

/-- The double nearest to `num / den`; beyond the largest one it is infinite. -/
def ofRatio (num den : Nat) : Float :=
  if num = 0 then 0.0
  else
    let low : Int := max (-1074) ((num.log2 : Int) - den.log2 - 53)
    let (n, d) := shifted num den (-low)
    let e := if twoTo 53 ≤ n / d then low + 1 else low
    let (n, d) := shifted num den (-e)
    let bits := (e + 1074).toNat * twoTo 52 + roundEven n d
    if 2047 * twoTo 52 ≤ bits then Float.ofBits 0x7FF0000000000000
    else Float.ofBits (UInt64.ofNat bits)

/-- The double nearest to a whole number of 64 bits. -/
def ofInteger (n : Int64) : Float :=
  let size := ofRatio n.toInt.natAbs 1
  if n.toInt < 0 then -size else size

/-- The double nearest to `digits * 10 ^ exponent`. -/
def ofDecimal (digits : Nat) (exponent : Int) : Float :=
  let size : Int := digits.log2 / 3 + 1
  if digits = 0 then 0.0
  else if 400 < exponent then Float.ofBits 0x7FF0000000000000
  else if exponent + size < -400 then 0.0
  else if 0 ≤ exponent then ofRatio (digits * tenTo exponent.toNat) 1
  else ofRatio digits (tenTo (-exponent).toNat)

/-- The double that is no number. -/
def nan : Float := 0.0 / 0.0

/-- The double beyond all numbers. -/
def infinity : Float := 1.0 / 0.0

/-- How two doubles compare; with NaN they do not. -/
def order? (x y : Float) : Option Ordering :=
  if x < y then some .lt else if x == y then some .eq else if y < x then some .gt else none

/-- A double without its fractional part. -/
def trunc (x : Float) : Float := if x < 0.0 then x.ceil else x.floor

/-- A finite double without fractional part. -/
def isWhole (x : Float) : Bool := x - trunc x == 0.0

/-- The double of a dyadic number whose mantissa needs no rounding. -/
def ofDyadic (d : Dyadic) : Float :=
  let (n, q) := shifted d.mantissa 1 d.exponent
  let x := ofRatio n q
  if d.negative then -x else x

/-- The remainder of the division that rounds toward zero. -/
def remainder (x y : Float) : Float :=
  match decode? x, decode? y with
  | none, _ => x - x
  | some a, none => if y.isNaN then y else ofDyadic a
  | some a, some b =>
    if b.mantissa = 0 then 0.0 / 0.0
    else
      let e := min a.exponent b.exponent
      let m := a.mantissa * twoTo (a.exponent - e).toNat % (b.mantissa * twoTo (b.exponent - e).toNat)
      ofDyadic ⟨a.negative, m, e⟩

/-- A dyadic number without its fraction. -/
def truncated (d : Dyadic) : Int :=
  let (n, q) := shifted d.mantissa 1 d.exponent
  if d.negative then -(n / q : Nat) else (n / q : Nat)

/-- An integer nearest to a double on the side of zero, held within 64 bits; NaN gives 0. -/
def toInteger (x : Float) : Int64 :=
  match decode? x with
  | some d => clamp (truncated d)
  | none => if x.isNaN then 0 else if x < 0.0 then .minValue else .maxValue

end Double

end LiveNotes.Number
