import LiveNotes.Script.Expr
import LiveNotes.Script.Convert

/-!
The operators of the function language on values.

* `Value.strictEq`, `Value.looseEq`: equality without and with conversion;
* `Value.order?`: the order of two texts, or of two values as numbers;
* `Comparison.holds`, `UnaryOp.apply`, `numeric`, `Logic.keeps`: the operators.
-/

namespace LiveNotes

open Number

namespace Value

/-- Equality without conversion; a whole number and a double can be equal. -/
def strictEq (a b : Value) : Bool :=
  match a.asFloat?, b.asFloat? with
  | some x, some y => x == y
  | _, _ => a == b

/-- Whether a value is a truth value. -/
def isBoolean : Value → Bool
  | .boolean _ => true
  | _ => false

/-- Equality with conversion: null equals only itself, an array is compared with a text as its
text, and beside a number or a truth value both are numbers. -/
def looseEq (a b : Value) : Bool :=
  match a, b with
  | .null, .null => true
  | .null, _ | _, .null => false
  | .string s, .string t => s == t
  | .boolean p, .boolean q => p == q
  | .array items, .string s => (Value.array items).toText == s
  | .string s, .array items => (Value.array items).toText == s
  | a, b =>
    if a.isNumber || b.isNumber || a.isBoolean || b.isBoolean then a.toNumber == b.toNumber
    else strictEq a b

/-- The order of two texts, by their characters, or of two values as numbers. -/
def order? (a b : Value) : Option Ordering :=
  match a, b with
  | .string s, .string t => some (compare s t)
  | a, b => Double.order? a.toNumber b.toNumber

/-- An operand that turns `+` into joining texts. -/
def joins : Value → Bool
  | .string _ | .array _ | .object _ => true
  | _ => false

/-- The number with the other sign. -/
def negate (v : Value) : Value :=
  match v with
  | .integer n =>
    match fit? (-n.toInt) with
    | some m => .integer m
    | none => .float (-Double.ofInteger n)
  | .float x => .float (-x)
  | v => ofFloat (-v.toNumber)

end Value

namespace Script

/-- Whether two values compare as the operator says. -/
def Comparison.holds (op : Comparison) (a b : Value) : Bool :=
  match op with
  | .equal => a.looseEq b
  | .notEqual => !a.looseEq b
  | .strictEqual => a.strictEq b
  | .strictNotEqual => !a.strictEq b
  | .lessThan => a.order? b == some .lt
  | .greaterThan => a.order? b == some .gt
  | .lessEqual => a.order? b == some .lt || a.order? b == some .eq
  | .greaterEqual => a.order? b == some .gt || a.order? b == some .eq

/-- The value of an operator before its operand. -/
def UnaryOp.apply (op : UnaryOp) (v : Value) : Value :=
  match op with
  | .not => .boolean !v.isTruthy
  | .plus => v.toNumeric
  | .negate => v.negate

/-- Arithmetic on two values as numbers; a division by zero is that of doubles. -/
def numeric (op : Arith) (a b : Value) : Value :=
  let a := a.toNumeric
  let b := b.toNumeric
  match Value.arith? op a b with
  | some v => v
  | none => .float (op.onFloats (a.asFloat?.getD Double.nan) (b.asFloat?.getD Double.nan))

/-- Whether the left operand is the result, and the right one is left alone. -/
def Logic.keeps (op : Logic) (left : Value) : Bool :=
  match op with
  | .and => !left.isTruthy
  | .or => left.isTruthy
  | .nullCoalesce => !left.isNull

end Script

end LiveNotes
