import LiveNotes.Json.Node

/-!
Records in JSON: values with named parts, written as an object or, in a fixed order, as an array.

* `Node.record?`: the parts of a record, as far as they are there;
* `Node.text?`, `Node.items?`, `Node.natural?`: a part of a known kind.
-/

namespace LiveNotes.Json

/-- The text that a tree is. -/
def Node.text? : Node → Option String
  | .text s => some s
  | _ => none

/-- The items that a tree has. -/
def Node.items? : Node → Option (List Node)
  | .array items => some items
  | _ => none

/-- The natural number that a tree is: written without a sign, a point or an exponent, and below a
bound. -/
def Node.natural? (bound : Nat) : Node → Option Nat
  | .number ⟨false, whole, none, none⟩ =>
    let n := Number.digitsValue whole
    if n < bound then some n else none
  | _ => none

/-- The one member of a name; none when it is missing, and a fault when it comes twice. -/
def member? (members : List (String × Node)) (name : String) : Option (Option Node) :=
  match members.filter (·.1 == name) with
  | [] => some none
  | [(_, node)] => some (some node)
  | _ => none

/-- The parts of a record: by their names from an object, whose other members are passed over, or
in order from an array, which may end early. -/
def Node.record? (names : List String) : Node → Option (List (Option Node))
  | .object members => names.mapM (member? members)
  | .array items =>
    if items.length ≤ names.length then
      some (items.map some ++ List.replicate (names.length - items.length) none)
    else none
  | _ => none

end LiveNotes.Json
