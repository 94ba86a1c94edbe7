import LiveNotes.Json.Number
import LiveNotes.Value.Basic

/-!
JSON text as a property value. A name that comes twice keeps its first place and has its last
value; containers nest at most 127 levels deep.
-/

namespace LiveNotes.Json

open Number

/-- The most containers inside one another. -/
def maxNesting : Nat := 127

/-- A number as a value: whole if it has no point and no exponent and fits in 64 bits. -/
def Numeric.toValue : Numeric → Value
  | .natural n =>
    match fit? n with
    | some n => .integer n
    | none => .float (UInt64.ofNat n).toFloat
  | .negative n => .integer n
  | .double x => .float x

mutual

/-- The value of a tree with at most `room` containers inside one another. -/
def Node.toValueWithin? (room : Nat) : Node → Option Value
  | .null => some .null
  | .boolean b => some (.boolean b)
  | .number n => n.read?.map Numeric.toValue
  | .text s => some (.string s)
  | .brokenText | .brokenObject => none
  | .array items =>
    match room with
    | 0 => none
    | room + 1 => (itemValues? room [] items).map .array
  | .object members =>
    match room with
    | 0 => none
    | room + 1 => (memberValues? room [] members).map fun pairs => .object (Entries.ofList pairs)

/-- The values of items behind those already read, last one first. -/
def itemValues? (room : Nat) (done : List Value) : List Node → Option (List Value)
  | [] => some done.reverse
  | n :: ns =>
    match n.toValueWithin? room with
    | some v => itemValues? room (v :: done) ns
    | none => none

/-- The names and values of members behind those already read, last one first. -/
def memberValues? (room : Nat) (done : List (String × Value)) :
    List (String × Node) → Option (List (String × Value))
  | [] => some done.reverse
  | (k, n) :: ms =>
    match n.toValueWithin? room with
    | some v => memberValues? room ((k, v) :: done) ms
    | none => none

end

/-- The value of a tree. -/
def Node.toValue? (n : Node) : Option Value := n.toValueWithin? maxNesting

/-- The value of a JSON text. -/
def readValue? (text : String) : Option Value := (Node.read? text).bind Node.toValue?

end LiveNotes.Json
