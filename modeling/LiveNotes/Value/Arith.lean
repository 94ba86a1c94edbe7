import LiveNotes.Value.Basic
import LiveNotes.Number.Decimal

/-!
Arithmetic on numbers. Two whole numbers are computed exactly while the result fits in 64 bits;
anything with a double goes through decimals, so that `0.1 + 0.2` is `0.3` and whole results are
whole numbers again. What fits in no decimal is computed with doubles.
-/

namespace LiveNotes

open Number

/-- The arithmetic operators. -/
inductive Arith where
  | add | subtract | multiply | divide | remainder
deriving DecidableEq, Repr

namespace Arith

/-- Division and remainder have no result for the divisor zero. -/
def divides : Arith → Bool
  | .divide | .remainder => true
  | _ => false

/-- The operator on doubles. -/
def onFloats : Arith → Float → Float → Float
  | .add, x, y => x + y
  | .subtract, x, y => x - y
  | .multiply, x, y => x * y
  | .divide, x, y => x / y
  | .remainder, x, y => Double.remainder x y

/-- The operator on decimals. -/
def onDecimals? : Arith → Decimal → Decimal → Option Decimal
  | .add, a, b => a.add? b
  | .subtract, a, b => a.sub? b
  | .multiply, a, b => a.mul? b
  | .divide, a, b => a.div? b
  | .remainder, a, b => a.rem? b

/-- The exact result on integers that is an integer. Only a division that leaves no remainder has
one. -/
def onIntegers? : Arith → Int → Int → Option Int
  | .add, a, b => some (a + b)
  | .subtract, a, b => some (a - b)
  | .multiply, a, b => some (a * b)
  | .divide, a, b => if b ≠ 0 ∧ a.tmod b = 0 then some (a.tdiv b) else none
  | .remainder, a, b => if b ≠ 0 then some (a.tmod b) else none

end Arith

namespace Value

/-- A decimal as a value: a whole number if it is one and fits, else a double. -/
def ofDecimal (d : Decimal) : Value :=
  match if d.isWhole then d.toInteger? else none with
  | some n => .integer n
  | none => .float d.toFloat

/-- The operator on two doubles by way of decimals. -/
def arithFloats? (op : Arith) (x y : Float) : Option Value :=
  if op.divides && y == 0.0 then none
  else
    let exact : Option Decimal := do
      let a ← Decimal.ofFloat? x
      let b ← Decimal.ofFloat? y
      op.onDecimals? a b
    match exact with
    | some d => some (ofDecimal d)
    | none => some (.float (op.onFloats x y))

/-- The operator on two whole numbers: the exact result if it is a whole number of 64 bits, the
quotient of the doubles for a division that leaves a remainder, else the result on doubles. -/
def arithIntegers? (op : Arith) (a b : Int64) : Option Value :=
  if op.divides && b == 0 then none
  else
    match op.onIntegers? a.toInt b.toInt with
    | some r =>
      match fit? r with
      | some n => some (.integer n)
      | none => arithFloats? op (Double.ofInteger a) (Double.ofInteger b)
    | none => some (.float (Double.ofInteger a / Double.ofInteger b))

/-- The operator on two values; none when one is not a number or a divisor is zero. -/
def arith? (op : Arith) (a b : Value) : Option Value :=
  match a, b with
  | .integer a, .integer b => arithIntegers? op a b
  | a, b =>
    match a.asFloat?, b.asFloat? with
    | some x, some y => arithFloats? op x y
    | _, _ => none

end Value

end LiveNotes
