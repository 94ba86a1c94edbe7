import LiveNotes.Script.Method

/-!
The methods of an array that take a function. The function is called on one item after the other,
with the position of the item and the whole array behind it; arguments that it has no parameter
for are dropped. The whole array is charged where the function has a parameter for it.

* `Callback`: a function as such a method sees it;
* `mapItems`, `filterItems`, `firstWhere`, `foldItems`: the loops;
* `ItemMethod.run`: what a method gives.
-/

namespace LiveNotes.Script

/-- A function that a method calls. -/
structure Callback where
  arity : Nat
  call : List Value → Run Value

/-- A position as a value. -/
def indexValue (i : Nat) : Value := .integer (Int64.ofNat i)

namespace Callback

/-- The function called on an item at a position of an array. -/
def onItem (f : Callback) (limit : Nat) (items : List Value) (i : Nat) (item : Value) :
    Run Value := do
  if 2 < f.arity then chargeCopy limit (.array items)
  f.call [item, indexValue i, .array items]

/-- The function called on a result so far and an item at a position of an array. -/
def onResult (f : Callback) (limit : Nat) (items : List Value) (result : Value) (i : Nat)
    (item : Value) : Run Value := do
  if 3 < f.arity then chargeCopy limit (.array items)
  f.call [result, item, indexValue i, .array items]

end Callback

/-- The results of a step on items, which start at position `i`, behind those already there, last
one first. -/
def mapItems (step : Nat → Value → Run Value) (done : List Value) (i : Nat) :
    List Value → Run (List Value)
  | [] => return done.reverse
  | v :: vs => do
    let r ← step i v
    mapItems step (r :: done) (i + 1) vs

/-- The items on which a step gives something true, behind those already kept, last one first. -/
def filterItems (step : Nat → Value → Run Value) (kept : List Value) (i : Nat) :
    List Value → Run (List Value)
  | [] => return kept.reverse
  | v :: vs => do
    let r ← step i v
    filterItems step (if r.isTruthy then v :: kept else kept) (i + 1) vs

/-- The first item, with its position, on which the truth of a step is the one looked for. -/
def firstWhere (step : Nat → Value → Run Value) (truth : Bool) (i : Nat) :
    List Value → Run (Option (Nat × Value))
  | [] => return none
  | v :: vs => do
    let r ← step i v
    if r.isTruthy == truth then return some (i, v) else firstWhere step truth (i + 1) vs

/-- The result of a step on a result so far and the items one after the other. -/
def foldItems (step : Value → Nat → Value → Run Value) (result : Value) (i : Nat) :
    List Value → Run Value
  | [] => return result
  | v :: vs => do
    let r ← step result i v
    foldItems step r (i + 1) vs

/-- The methods of an array that take a function. -/
inductive ItemMethod where
  | map | filter | find | findIndex | some | every | reduce
deriving DecidableEq

/-- The method of a name. -/
def ItemMethod.ofName? (name : String) : Option ItemMethod :=
  match name with
  | "map" => .some .map
  | "filter" => .some .filter
  | "find" => .some .find
  | "findIndex" => .some .findIndex
  | "some" => .some .some
  | "every" => .some .every
  | "reduce" => .some .reduce
  | _ => none

/-- What a method of an array gives with a function. A fold starts from the value given behind the
function, or else from the first item. -/
def ItemMethod.run (limit : Nat) (items : List Value) (f : Callback) (initial : Option (Run Value)) :
    ItemMethod → Run Value
  | .map => return .array (← mapItems (f.onItem limit items) [] 0 items)
  | .filter => return .array (← filterItems (f.onItem limit items) [] 0 items)
  | .find => do
    let found ← firstWhere (f.onItem limit items) true 0 items
    return found.elim .null (·.2)
  | .findIndex => do
    let found ← firstWhere (f.onItem limit items) true 0 items
    return positionValue (found.map (·.1))
  | .some => do
    let found ← firstWhere (f.onItem limit items) true 0 items
    return .boolean found.isSome
  | .every => do
    let found ← firstWhere (f.onItem limit items) false 0 items
    return .boolean found.isNone
  | .reduce =>
    match initial, items with
    | .some start, items => do
      let r ← start
      foldItems (f.onResult limit items) r 0 items
    | none, [] => fault .emptyReduce
    | none, first :: rest => foldItems (f.onResult limit (first :: rest)) first 1 rest

end LiveNotes.Script
