import LiveNotes.Value.Basic
import LiveNotes.Number.Text
import LiveNotes.Json.Layout

/-!
The JSON text of a value: compact, or indented by two blanks a level. Objects keep their order, a
double that is no number is null, and controls are written as escapes.
-/

namespace LiveNotes

open Number

namespace Value

/-- The text of a value that is not a container. -/
def scalarJson : Value → String
  | .null => "null"
  | .boolean b => if b then "true" else "false"
  | .integer n => integerText n
  | .float x => if x.isFinite then plain x else "null"
  | .string s => Json.quote s
  | .array _ => "[]"
  | .object _ => "\x7b\x7d"

mutual

/-- The compact text. -/
def toJson : Value → String
  | .array items => "[" ++ String.intercalate "," (itemsJson [] items) ++ "]"
  | .object entries => "\x7b" ++ String.intercalate "," (entriesJson [] entries) ++ "\x7d"
  | v => scalarJson v

/-- The compact texts of items behind those already written, last one first. -/
def itemsJson (done : List String) : List Value → List String
  | [] => done.reverse
  | v :: vs => itemsJson (toJson v :: done) vs

/-- The compact texts of entries behind those already written, last one first. -/
def entriesJson (done : List String) : List (String × Value) → List String
  | [] => done.reverse
  | (k, v) :: es => entriesJson ((Json.quote k ++ ":" ++ toJson v) :: done) es

end

mutual

/-- The indented text at some depth. -/
def prettyAt (depth : Nat) : Value → String
  | .array (v :: vs) => Json.block "[" "]" depth (itemsPretty (depth + 1) [] (v :: vs))
  | .object (e :: es) => Json.block "\x7b" "\x7d" depth (entriesPretty (depth + 1) [] (e :: es))
  | v => scalarJson v

/-- The indented texts of items behind those already written, last one first. -/
def itemsPretty (depth : Nat) (done : List String) : List Value → List String
  | [] => done.reverse
  | v :: vs => itemsPretty depth (prettyAt depth v :: done) vs

/-- The indented texts of entries behind those already written, last one first. -/
def entriesPretty (depth : Nat) (done : List String) : List (String × Value) → List String
  | [] => done.reverse
  | (k, v) :: es => entriesPretty depth ((Json.quote k ++ ": " ++ prettyAt depth v) :: done) es

end

/-- The text with two blanks of indentation a level. -/
def toPrettyJson (v : Value) : String := prettyAt 0 v

end Value

end LiveNotes
