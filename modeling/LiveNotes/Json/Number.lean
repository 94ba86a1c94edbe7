import LiveNotes.Json.Node
import LiveNotes.Number.Integer

/-!
The number that a JSON number stands for. A number without point and exponent is whole if it fits
in 64 bits. Any other is a double, computed from the leading digits that fit in 64 bits and a power
of ten: one multiplication or division, which rounds, but not always to the nearest double.
-/

namespace LiveNotes.Json

open Number

/-- A JSON number, read. -/
inductive Numeric where
  | natural (n : Nat)
  | negative (n : Int64)
  | double (x : Float)

/-- Leading digits that fit in 64 bits, and the power of ten that they are short of. -/
structure Significand where
  digits : Nat
  power : Int

/-- Whether another digit fits. -/
def Significand.fits (s : Significand) (c : Char) : Bool :=
  s.digits * 10 + (c.toNat - 48) < twoTo 64

/-- Takes the digits before the point; behind the first one that does not fit they only count. -/
def Significand.takeWhole (s : Significand) : List Char → Significand
  | [] => s
  | c :: cs =>
    if s.power = 0 ∧ s.fits c then
      takeWhole { s with digits := s.digits * 10 + (c.toNat - 48) } cs
    else takeWhole { s with power := s.power + 1 } cs

/-- Takes the digits behind the point up to the first one that does not fit. -/
def Significand.takeFraction (s : Significand) : List Char → Significand
  | [] => s
  | c :: cs =>
    if s.fits c then
      takeFraction ⟨s.digits * 10 + (c.toNat - 48), s.power - 1⟩ cs
    else s

/-- Scales a double by a power of ten; none if the result is too large. The steps down by
`10 ^ 308` are bounded by `room`. -/
def scaleFloat? (room : Nat) (x : Float) (power : Int) : Option Float :=
  if power.natAbs ≤ 308 then
    let p := Double.ofDecimal 1 power.natAbs
    if 0 ≤ power then
      let y := x * p
      if y.isInf then none else some y
    else some (x / p)
  else if x == 0.0 then some x
  else if 0 ≤ power then none
  else
    match room with
    | 0 => some 0.0
    | room + 1 => scaleFloat? room (x / Double.ofDecimal 1 308) (power + 308)

/-- The largest exponent that is written out. -/
def exponentLimit : Nat := 2147483647

/-- The sum of two powers of ten, held within 32 bits. -/
def addPowers (a b : Int) : Int := max (-2147483648) (min 2147483647 (a + b))

/-- The double that a significand and a written exponent stand for. -/
def Significand.toFloat? (s : Significand) : Option (Bool × List Char) → Option Float
  | none => scaleFloat? 10 (UInt64.ofNat s.digits).toFloat s.power
  | some (negative, ds) =>
    let n := digitsValue ds
    if exponentLimit < n then
      if s.digits ≠ 0 ∧ !negative then none else some 0.0
    else
      let power := addPowers s.power (if negative then -n else n)
      scaleFloat? 10 (UInt64.ofNat s.digits).toFloat power

/-- The number; none if it is too large for a double. -/
def NumberText.read? (t : NumberText) : Option Numeric :=
  let s := Significand.takeWhole ⟨0, 0⟩ t.whole
  match t.fraction, t.exponent, s.power with
  | none, none, 0 =>
    if !t.negative then some (.natural s.digits)
    else if s.digits ≠ 0 ∧ s.digits ≤ twoTo 63 then some (.negative (Int64.ofInt (-s.digits)))
    else some (.double (-(UInt64.ofNat s.digits).toFloat))
  | _, _, _ =>
    let s := s.takeFraction (t.fraction.getD [])
    (s.toFloat? t.exponent).map fun x => .double (if t.negative then -x else x)

end LiveNotes.Json
