import LiveNotes.Script.Method
import LiveNotes.Json.Value
import LiveNotes.Value.Json

/-!
The names that a script can use without binding them, and their members.

* `Global`: the eight names, of which some can be called;
* `MathFunction`: the functions on numbers;
* `Global.method`: a member of a global called with arguments.
-/

namespace LiveNotes.Script

open Number

/-- The names that stand for something without being bound. -/
inductive Global where
  | math | json | object | string | number | boolean | parseInt | parseFloat
deriving DecidableEq

/-- How a global is written. -/
def Global.name : Global → String
  | .math => "Math"
  | .json => "JSON"
  | .object => "Object"
  | .string => "String"
  | .number => "Number"
  | .boolean => "Boolean"
  | .parseInt => "parseInt"
  | .parseFloat => "parseFloat"

/-- All globals. -/
def Global.all : List Global :=
  [.math, .json, .object, .string, .number, .boolean, .parseInt, .parseFloat]

/-- The global of a name. -/
def Global.ofName? (name : String) : Option Global := Global.all.find? (·.name == name)

/-! ### Numbers -/

/-- The functions of `Math`. -/
inductive MathFunction where
  | round | floor | ceil | abs | sqrt | trunc | sign | pow | min | max
deriving DecidableEq

/-- The function of a name. -/
def MathFunction.ofName? (name : String) : Option MathFunction :=
  match name with
  | "round" => some .round
  | "floor" => some .floor
  | "ceil" => some .ceil
  | "abs" => some .abs
  | "sqrt" => some .sqrt
  | "trunc" => some .trunc
  | "sign" => some .sign
  | "pow" => some .pow
  | "min" => some .min
  | "max" => some .max
  | _ => none

/-- The smaller or larger of two doubles, NaN if one of them is. -/
def extreme (larger : Bool) (x y : Float) : Float :=
  if x.isNaN || y.isNaN then Double.nan
  else if larger then (if x < y then y else x) else (if y < x then y else x)

/-- The value of a function at its arguments; one that is not given is NaN. Halves round up. -/
def MathFunction.apply (f : MathFunction) (args : List Float) : Float :=
  let x := args.headD Double.nan
  match f with
  | .round => (x + 0.5).floor
  | .floor => x.floor
  | .ceil => x.ceil
  | .abs => x.abs
  | .sqrt => x.sqrt
  | .trunc => Double.trunc x
  | .sign => if x < 0.0 then -1.0 else if 0.0 < x then 1.0 else x
  | .pow => x.pow (args.getD 1 Double.nan)
  | .min => args.foldl (extreme false) Double.infinity
  | .max => args.foldl (extreme true) (-Double.infinity)

/-- The constants of `Math`; other members are null. -/
def mathConstant (name : String) : Value :=
  if name = "PI" then .float 3.141592653589793
  else if name = "E" then .float 2.718281828459045
  else .null

/-! ### Objects -/

/-- The names of an object, or the positions of an array. -/
def objectKeys : Value → List Value
  | .object entries => entries.map fun (k, _) => .string k
  | .array items => (List.range items.length).map fun i => .string i.repr
  | _ => []

/-- The values of an object, or the items of an array. -/
def objectValues : Value → List Value
  | .object entries => entries.map fun (_, v) => v
  | .array items => items
  | _ => []

/-- The names of an object with their values. -/
def objectEntries : Value → List Value
  | .object entries => entries.map fun (k, v) => .array [.string k, v]
  | _ => []

/-! ### Calls -/

/-- The number at the start of a text, or NaN. -/
def leadingNumber (s : List Char) : Value := .ofFloat ((readLeading? s).getD Double.nan)

/-- A global called as a function; not all of them can be. -/
def Global.call? (g : Global) (args : List Value) : Option Value :=
  let first := (args.headD .null)
  match g with
  | .string => some (.string (args.head?.elim "" Value.toText))
  | .number => some (args.head?.elim (.integer 0) Value.toNumeric)
  | .boolean => some (.boolean first.isTruthy)
  | .parseInt => some (readInteger first.toText.toList (args[1]?.elim 0 Value.toWhole))
  | .parseFloat => some (leadingNumber first.toText.toList)
  | _ => none

/-- A member of a global called with arguments. -/
def Global.method (g : Global) (name : String) (args : List Value) : Except ScriptError Value :=
  let first := (args.headD .null)
  let unknown := Except.error (.unknownMethod g.name name)
  match g, name with
  | .math, name =>
    match MathFunction.ofName? name with
    | some f => .ok (.ofFloat (f.apply (args.map Value.toNumber)))
    | none => unknown
  | .json, "stringify" => .ok (.string first.toJson)
  | .json, "parse" =>
    match Json.readValue? first.toText with
    | some v => .ok v
    | none => .error (.typeFault .malformedJson)
  | .object, "keys" => .ok (.array (objectKeys first))
  | .object, "values" => .ok (.array (objectValues first))
  | .object, "entries" => .ok (.array (objectEntries first))
  | .number, "isInteger" => .ok (.boolean (first.isNumber && Double.isWhole first.toNumber))
  | .number, "isNaN" => .ok (.boolean (first.isNumber && first.toNumber.isNaN))
  | .number, "parseFloat" => .ok (leadingNumber first.toText.toList)
  | .number, "parseInt" => .ok (readInteger first.toText.toList (args[1]?.elim 0 Value.toWhole))
  | _, _ => unknown

end LiveNotes.Script
