import LiveNotes.Value.Basic
import LiveNotes.Number.Numeral
import LiveNotes.Number.Text
import LiveNotes.Text.Blank
import LiveNotes.Text.Search

/-!
How the function language takes any value as a number, a text or a position.

* `Value.toNumber`, `Value.toNumeric`: as a double, as a number value;
* `Value.toText`: as a text; an array is its items with commas between them;
* `Value.ofFloat`: a double as a value, whole ones as whole numbers while doubles count exactly;
* `readNumber?`, `readInteger`, `readLeading?`: numbers in texts;
* `offset?`, `position?`, `span`: positions in a text or an array.
-/

namespace LiveNotes

open Number

namespace Script

/-- A text as a number: blank is zero, `Infinity` and hexadecimal digits are understood, and else
the whole text has to be a decimal numeral. -/
def readNumber? (s : List Char) : Option Float :=
  match Text.trim s with
  | [] => some 0.0
  | '0' :: 'x' :: hex | '0' :: 'X' :: hex =>
    ((readRadix? 16 hex).bind fit?).map Double.ofInteger
  | s =>
    if s = "Infinity".toList ∨ s = "+Infinity".toList then some Double.infinity
    else if s = "-Infinity".toList then some (-Double.infinity)
    else readDecimal? s

/-- The longest decimal numeral at the start of a text, as a double. -/
def readLeading? (s : List Char) : Option Float :=
  let s := Text.trimStart s
  let starts (word : String) : Bool := word.toList.isPrefixOf s
  if starts "Infinity" || starts "+Infinity" then some Double.infinity
  else if starts "-Infinity" then some (-Double.infinity)
  else (takeNumeral? s).bind readDecimal?

end Script

namespace Value

/-- A double as a value: a whole number if it has no fraction and is below `2 ^ 53`. -/
def ofFloat (x : Float) : Value :=
  if x.isFinite && Double.isWhole x && x.abs < 9007199254740992.0 then
    .integer (Double.toInteger x)
  else .float x

/-- A value as a double: null is zero, an array of one item is that item. -/
def toNumber : Value → Float
  | .null => 0.0
  | .boolean b => if b then 1.0 else 0.0
  | .integer n => Double.ofInteger n
  | .float x => x
  | .string s => (Script.readNumber? s.toList).getD Double.nan
  | .array [] => 0.0
  | .array [only] => toNumber only
  | .array _ => Double.nan
  | .object _ => Double.nan

/-- A value as a number value; numbers stay as they are. -/
def toNumeric (v : Value) : Value :=
  match v with
  | .integer _ | .float _ => v
  | v => ofFloat v.toNumber

/-- A value as a whole number, cut toward zero and held within 64 bits. -/
def toWhole (v : Value) : Int64 := Double.toInteger v.toNumber

def isNull : Value → Bool
  | .null => true
  | _ => false

mutual

/-- A value as a text. -/
def toText : Value → String
  | .null => "null"
  | .boolean b => if b then "true" else "false"
  | .integer n => integerText n
  | .float x => plain x
  | .string s => s
  | .array items => String.intercalate "," (itemTexts [] items)
  | .object _ => "[object Object]"

/-- The texts of items inside a joined text, null being empty, behind those already written, last
one first. -/
def itemTexts (done : List String) : List Value → List String
  | [] => done.reverse
  | v :: vs => itemTexts ((if v.isNull then "" else toText v) :: done) vs

end

end Value

namespace Script

/-- The whole number at the start of a text, in a radix from 2 to 36. The radix 0 is ten, or
sixteen behind `0x`. Beyond 64 bits the digits give a double. -/
def readInteger (s : List Char) (radix : Int64) : Value :=
  let (negative, s) := takeSign (Text.trim s)
  let (radix, s) : Int × List Char :=
    match s with
    | '0' :: 'x' :: hex | '0' :: 'X' :: hex =>
      if radix = 0 ∨ radix = 16 then (16, hex) else (radix.toInt, s)
    | s => (if radix = 0 then 10 else radix.toInt, s)
  if radix < 2 ∨ 36 < radix then .float Double.nan
  else
    let ds := takeDigits radix.toNat s
    if ds.isEmpty then .float Double.nan
    else
      let n : Int := radixValue radix.toNat ds
      match fit? n with
      | some m => .integer (if negative then -m else m)
      | none =>
        let x := radixFloat radix.toNat ds
        .float (if negative then -x else x)

/-- A position counted from the start, if the value is a whole number that can be one. -/
def offset? (v : Option Value) : Option Nat :=
  match v.bind Value.asInteger? with
  | some n => if 0 ≤ n.toInt then some n.toInt.toNat else none
  | none => none

/-- A position below `length`, counted from the end when negative; none given is zero. -/
def position? (v : Option Value) (length : Nat) : Option Nat :=
  let n := (v.elim 0 Value.toWhole).toInt
  let at? : Option Nat :=
    if 0 ≤ n then some n.toNat
    else if n.natAbs ≤ length then some (length - n.natAbs) else none
  at?.filter (· < length)

/-- A bound between 0 and `length`, counted from the end when negative; null is `default`. -/
def bound (v : Option Value) (length default : Nat) : Nat :=
  match v with
  | none | some .null => default
  | some v =>
    let n := v.toWhole.toInt
    if 0 ≤ n then min n.toNat length else length - n.natAbs

/-- The start and the end of a slice, `start ≤ end ≤ length`. -/
def span (args : List Value) (length : Nat) : Nat × Nat :=
  let last := bound args[1]? length length
  (min (bound args[0]? length 0) last, last)

/-- The part of a list between two positions. -/
def cutOut {α : Type} (items : List α) (bounds : Nat × Nat) : List α :=
  (items.take bounds.2).drop bounds.1

theorem bound_le (v : Option Value) (length default : Nat) (h : default ≤ length) :
    bound v length default ≤ length := by
  unfold bound
  split
  · exact h
  · exact h
  · simp only
    split <;> omega

/-- The bounds of a slice lie in order within the length. -/
theorem span_le (args : List Value) (length : Nat) :
    (span args length).1 ≤ (span args length).2 ∧ (span args length).2 ≤ length :=
  ⟨Nat.min_le_right _ _, bound_le _ _ _ (Nat.le_refl _)⟩

end Script

end LiveNotes
