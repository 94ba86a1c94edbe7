import LiveNotes.Number.Double
import LiveNotes.Number.Integer

/-!
Decimal numbers with a mantissa of 96 bits and at most 28 digits behind the point.

* `ofFloat?`: a double as a decimal, cut to the digits that a double can hold;
* `add?`, `sub?`, `mul?`, `div?`, `rem?`: exact results where they fit, else rounded to the digits
  that fit, a half to the even neighbour; nothing when not even the whole part fits;
* `toFloat`, `toInteger?`: back to doubles and to integers.
-/

namespace LiveNotes.Number

/-- The number `mantissa / 10 ^ scale`, with a sign. -/
structure Decimal where
  negative : Bool
  mantissa : Nat
  scale : Nat
deriving Repr, DecidableEq

namespace Decimal

/-- A mantissa is below this. -/
def capacity : Nat := twoTo 96

/-- The most digits behind the point. -/
def maxScale : Nat := 28

/-- Turns `m / 2 ^ count * 10 ^ -places` into an equal or nearly equal number without the power of
two. A factor two of the mantissa is dropped; else the mantissa takes a factor five and the number
one more place; a mantissa with no room for the factor loses its last bit. -/
def absorbHalves : (count m places : Nat) → Nat × Nat
  | 0, m, places => (m, places)
  | count + 1, m, places =>
    if m % 2 ≠ 0 ∧ m * 5 < capacity then absorbHalves count (m * 5) (places + 1)
    else absorbHalves count (m / 2) places

/-- Takes `count` digits off the end, each half up; a mantissa that runs out is zero. -/
def dropDigits : (count m places : Nat) → Nat × Nat
  | 0, m, places => (m, places)
  | count + 1, m, places =>
    if m / 10 = 0 then (0, 0) else dropDigits count (roundUp m 10) (places - 1)

/-- Takes digits off the end, each half up, while the mantissa has more bits than a double holds
and places are left. -/
def dropExcess : (room m places : Nat) → Nat × Nat
  | 0, m, places => (m, places)
  | room + 1, m, places =>
    if places ≠ 0 ∧ twoTo 52 ≤ m then dropExcess room (roundUp m 10) (places - 1) else (m, places)

/-- Takes zeros off the end while places are left. -/
def dropZeros : (m places : Nat) → Nat × Nat
  | m, 0 => (m, 0)
  | m, places + 1 => if m % 10 = 0 then dropZeros (m / 10) places else (m, places + 1)

/-- A double as a decimal: whole numbers below the capacity exactly, others to the fifteen or so
digits that a double holds. -/
def ofFloat? (x : Float) : Option Decimal :=
  match Double.decode? x with
  | none => none
  | some d =>
    if 0 ≤ d.exponent then
      let m := d.mantissa * twoTo d.exponent.toNat
      if m < capacity then some ⟨d.negative, m, 0⟩ else none
    else if d.mantissa = 0 then some ⟨d.negative, 0, 0⟩
    else
      let (m, places) := absorbHalves (-d.exponent).toNat d.mantissa 0
      let (m, places) := dropDigits (places - maxScale) m places
      let (m, places) := dropExcess places m places
      let (m, places) := dropZeros m places
      some ⟨d.negative, m, places⟩

/-- `num / den` with as many places as fit, at most `places`. -/
def round? (negative : Bool) (num den : Nat) : (places : Nat) → Option Decimal
  | 0 => if roundEven num den < capacity then some ⟨negative, roundEven num den, 0⟩ else none
  | places + 1 =>
    let m := roundEven (num * tenTo (places + 1)) den
    if m < capacity then some ⟨negative, m, places + 1⟩ else round? negative num den places

/-- The signed mantissa at a number of places that is at least the scale. -/
def mantissaAt (d : Decimal) (places : Nat) : Int :=
  let m := d.mantissa * tenTo (places - d.scale)
  if d.negative then -m else m

/-- The same size with the other sign. -/
def neg (d : Decimal) : Decimal := { d with negative := !d.negative }

/-- The sum. -/
def add? (a b : Decimal) : Option Decimal :=
  let places := max a.scale b.scale
  let sum := a.mantissaAt places + b.mantissaAt places
  round? (sum < 0) sum.natAbs (tenTo places) places

/-- The difference. -/
def sub? (a b : Decimal) : Option Decimal := add? a b.neg

/-- The product; zero has no places. -/
def mul? (a b : Decimal) : Option Decimal :=
  if a.mantissa = 0 ∨ b.mantissa = 0 then some ⟨false, 0, 0⟩
  else
    round? (a.negative != b.negative) (a.mantissa * b.mantissa) (tenTo (a.scale + b.scale))
      (min maxScale (a.scale + b.scale))

/-- How many digits, at most `room`, a quotient can take on at its end. -/
def digitRoom (q : Nat) : (room : Nat) → Nat
  | 0 => 0
  | room + 1 => if q * tenTo (room + 1) < capacity then room + 1 else digitRoom q room

/-- Takes `count` zeros off the end if they are there. -/
def dropAtOnce (count m places : Nat) : Nat × Nat :=
  if count ≤ places ∧ m % tenTo count = 0 then (m / tenTo count, places - count) else (m, places)

/-- Takes eight zeros at a time off a number whose last 32 bits are zero. -/
def dropEights : (room m places : Nat) → Nat × Nat
  | 0, m, places => (m, places)
  | room + 1, m, places =>
    if m % twoTo 32 = 0 ∧ 8 ≤ places ∧ m % tenTo 8 = 0 then dropEights room (m / tenTo 8) (places - 8)
    else (m, places)

/-- Takes zeros off the end of a quotient: four, two and one of them, each if they are there. -/
def tidy (m places : Nat) : Nat × Nat :=
  let (m, places) := dropEights 4 m places
  let (m, places) := dropAtOnce 4 m places
  let (m, places) := dropAtOnce 2 m places
  dropAtOnce 1 m places

/-- A quotient that outgrew the capacity by a carry gives up its last digit, which is rounded; `more`
says that something is left behind it. -/
def giveUpDigit? (negative : Bool) (m : Nat) (more : Bool) : (places : Nat) → Option Decimal
  | 0 => none
  | places + 1 =>
    let up := 5 < m % 10 ∨ (m % 10 = 5 ∧ (more ∨ m / 10 % 2 = 1))
    let (m, places) := tidy (if up then m / 10 + 1 else m / 10) places
    some ⟨negative, m, places⟩

/-- Long division, up to nine digits at a time: `q` has been found, `r` is left over, and `places`
digits of `q` stand behind the point, where a negative number says that digits before the point are
still missing. The division ends when nothing is left, or when `q` can take on no digit more; then
its last digit is rounded, a half to even. `room` bounds the steps. -/
def divideFrom? (negative : Bool) (den : Nat) :
    (room q r : Nat) → (places : Int) → (inexact : Bool) → Option Decimal
  | 0, _, _, _, _ => none
  | room + 1, q, r, places, inexact =>
    if r = 0 ∧ 0 ≤ places then
      let (m, places) := if inexact then tidy q places.toNat else (q, places.toNat)
      some ⟨negative, m, places⟩
    else
      let count : Nat :=
        if r = 0 then min 9 (-places).toNat
        else digitRoom q (min 9 (maxScale - places).toNat)
      if r ≠ 0 ∧ count = 0 then
        if places < 0 then none
        else
          let up := den < 2 * r ∨ (den = 2 * r ∧ q % 2 = 1)
          let m := if up then q + 1 else q
          if m < capacity then
            let (m, places) := tidy m places.toNat
            some ⟨negative, m, places⟩
          else giveUpDigit? negative m true places.toNat
      else
        let num := r * tenTo count
        let q := q * tenTo count + num / den
        let places := places + count
        if q < capacity then divideFrom? negative den room q (num % den) places (inexact || r != 0)
        else if r = 0 then none
        else giveUpDigit? negative q (num % den != 0) places.toNat

/-- The quotient; none by zero. -/
def div? (a b : Decimal) : Option Decimal :=
  if b.mantissa = 0 then none
  else if a.mantissa = 0 then some ⟨false, 0, 0⟩
  else
    divideFrom? (a.negative != b.negative) b.mantissa 64 (a.mantissa / b.mantissa)
      (a.mantissa % b.mantissa) (a.scale - b.scale) false

/-- The remainder of the division that rounds toward zero; none by zero. A dividend that is smaller
than the divisor is its own remainder. -/
def rem? (a b : Decimal) : Option Decimal :=
  let places := max a.scale b.scale
  let m := a.mantissa * tenTo (places - a.scale)
  let n := b.mantissa * tenTo (places - b.scale)
  if b.mantissa = 0 then none
  else if m < n then some a
  else some ⟨a.negative, m % n, places⟩

/-- Whether nothing but zeros stands behind the point. -/
def isWhole (d : Decimal) : Bool := d.mantissa % tenTo d.scale == 0

/-- The number without its fractional part, if it fits in 64 bits. -/
def toInteger? (d : Decimal) : Option Int64 :=
  let n : Int := (d.mantissa / tenTo d.scale : Nat)
  fit? (if d.negative then -n else n)

/-- A power of a double by repeated squaring; `room` bounds the number of squarings. -/
def power (room : Nat) (x acc : Float) (n : Nat) : Float :=
  match room with
  | 0 => acc
  | room + 1 =>
    let acc := if n % 2 = 1 then acc * x else acc
    if n / 2 = 0 then acc else power room (x * x) acc (n / 2)

/-- A double near the number: the whole part and the fraction are converted one by one, and their
sum is rounded to as many places as the number has. -/
def toFloat (d : Decimal) : Float :=
  let unit := tenTo d.scale
  let whole := Double.ofRatio (d.mantissa / unit) 1
  let fraction := Double.ofRatio (d.mantissa % unit) 1 / Double.ofRatio unit 1
  let size :=
    if d.scale = 0 ∨ fraction == 0.0 then whole
    else
      let p := power 6 10.0 1.0 d.scale
      ((whole + fraction) * p).round / p
  if d.negative then -size else size

end Decimal

end LiveNotes.Number
