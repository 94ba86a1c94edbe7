import LiveNotes.Value.Basic
import LiveNotes.Number.Numeral

/-!
Property paths: where a value stands inside the properties of a document, such as `owner.name` or
`rows[0].cells[2]`.

* `parsePath`: a path as steps;
* `Properties.lookup?`: the value at a path;
* `Properties.flatten`: all paths with their values, containers before their parts.
-/

namespace LiveNotes

/-- One step of a path: to an entry of an object by its name, or to an item of an array. -/
inductive PathStep where
  | field (name : String)
  | index (i : Nat)
deriving DecidableEq, Repr

/-- A position written in digits, perhaps behind a plus; positions are below `2 ^ 64`. -/
def readPosition? (s : List Char) : Option Nat :=
  (Number.readNat? (match s with
    | '+' :: s => s
    | s => s)).filter (· < twoTo 64)

/-- The step that a part of a path is, in brackets or not. -/
def stepOf (bracketed : Bool) (part : List Char) : PathStep :=
  match readPosition? part with
  | some i => if bracketed then .index i else .field (.ofList part)
  | none => .field (.ofList part)

/-- Steps, last one first, with one more for a part; an empty part gives none. -/
def pushStep (done : List PathStep) (bracketed : Bool) (part : List Char) : List PathStep :=
  if part.isEmpty then done else stepOf bracketed part.reverse :: done

/-- The steps of a path behind those already read and the part being read, both last one first;
`bracketed` says whether that part stands in brackets. -/
def stepsFrom (done : List PathStep) (part : List Char) (bracketed : Bool) :
    List Char → List PathStep
  | [] => (pushStep done bracketed part).reverse
  | c :: s =>
    if c = '[' then stepsFrom (pushStep done false part) [] true s
    else if c = '.' ∧ bracketed = false then stepsFrom (pushStep done false part) [] false s
    else if c = ']' ∧ bracketed = true then stepsFrom (pushStep done true part) [] false s
    else stepsFrom done (c :: part) bracketed s

/-- The steps of a path. Empty parts give none, so `a..b` is `a.b`. -/
def parsePath (path : String) : List PathStep := stepsFrom [] [] false path.toList

namespace PathStep

/-- The name of an entry that a step leads to. -/
def name : PathStep → String
  | .field name => name
  | .index i => i.repr

/-- The position of an item that a step leads to. -/
def position? : PathStep → Option Nat
  | .field name => readPosition? name.toList
  | .index i => some i

end PathStep

/-- The part of a value that a step leads to. -/
def Value.part? (v : Value) (step : PathStep) : Option Value :=
  match v with
  | .object entries => Entries.get? entries step.name
  | .array items => step.position?.bind fun i => items[i]?
  | _ => none

namespace Properties

/-- The value at the end of some steps, of which there has to be one. -/
def follow? (properties : Properties) : List PathStep → Option Value
  | [] => none
  | first :: rest =>
    rest.foldl (fun v step => v.bind (·.part? step)) (Entries.get? properties first.name)

/-- The value at a path. -/
def lookup? (properties : Properties) (path : String) : Option Value :=
  properties.follow? (parsePath path)

end Properties

namespace Value

mutual

/-- A value at a path and all its parts, each with its path. -/
def flattenAt (path : String) (v : Value) : List (String × Value) :=
  (path, v) :: (match v with
    | .array items => flattenItems path 0 items
    | .object entries => flattenEntries path entries
    | _ => [])

/-- The items of an array at a path, from position `i` on, and all their parts. -/
def flattenItems (path : String) (i : Nat) : List Value → List (String × Value)
  | [] => []
  | v :: vs => flattenAt (path ++ "[" ++ i.repr ++ "]") v ++ flattenItems path (i + 1) vs

/-- The entries of an object at a path and all their parts. -/
def flattenEntries (path : String) : List (String × Value) → List (String × Value)
  | [] => []
  | (k, v) :: es => flattenAt (path ++ "." ++ k) v ++ flattenEntries path es

end

end Value

/-- All paths of properties with their values, containers before their parts. -/
def Properties.flatten (properties : Properties) : List (String × Value) :=
  List.flatMap (fun (k, v) => v.flattenAt k) properties

end LiveNotes
