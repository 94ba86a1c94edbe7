import LiveNotes.Script.Parser
import LiveNotes.Script.Convert

/-!
What a script runs on: the variables of the calls in progress and the steps charged so far. Every
node of an expression, every statement and every call costs a step, and a copy costs a step for
each byte, item and entry in it. A run ends when more steps are charged than the limit allows.

* `ScriptError`: why a script does not compile or gives no value;
* `weight?`: what a copy of a value costs;
* `stepCap`, `charge`, `within`, `declare`: the operations of a run.
-/

namespace LiveNotes.Script

open Number

/-- The deepest nesting of arrays and objects in a value that is copied. -/
def maxNesting : Nat := 256

/-- The faults of a script that are errors of type. -/
inductive TypeFault where
  | functionAsValue
  | globalAsValue (name : String)
  | memberOfNull (name : String)
  | callbackExpected (method : String)
  | emptyReduce
  | repeatCount (n : Int64)
  | malformedJson
deriving DecidableEq

/-- The words for a fault. -/
def TypeFault.words : TypeFault → String
  | .functionAsValue => "a function can only be passed directly as a callback"
  | .globalAsValue name => name ++ " can only be called or used through its members"
  | .memberOfNull name => "cannot read properties of null (reading '" ++ name ++ "')"
  | .callbackExpected method => method ++ " expects a function literal as its first argument"
  | .emptyReduce => "reduce of empty array with no initial value"
  | .repeatCount n => "invalid repeat count " ++ integerText n
  | .malformedJson => "JSON.parse"

/-- Why a script does not compile or gives no value. -/
inductive ScriptError where
  | malformed (e : SyntaxError)
  | typeFault (fault : TypeFault)
  | undefinedVariable (name : String)
  | notCallable (name : String)
  | unknownMethod (receiver method : String)
  | arity (expected got : Nat)
  | stepLimitExceeded (limit : Nat)
  | nestingTooDeep

/-- The message of an error. -/
def ScriptError.message : ScriptError → String
  | .malformed e => e.message
  | .typeFault fault => "type error: " ++ fault.words
  | .undefinedVariable name => name ++ " is not defined"
  | .notCallable name => name ++ " is not a function"
  | .unknownMethod receiver method => receiver ++ "." ++ method ++ " is not a function"
  | .arity expected got =>
    "function takes " ++ expected.repr ++ " argument(s) but was called with " ++ got.repr
  | .stepLimitExceeded limit => "step limit of " ++ limit.repr ++ " exceeded"
  | .nestingTooDeep => "value nested deeper than " ++ maxNesting.repr ++ " levels"

/-! ### Weight -/

mutual

/-- The cost of a copy of a value that stands `depth` levels deep: its bytes, items and entries.
None if it nests too deeply. -/
def weight? (depth : Nat) : Value → Option Nat
  | .string s => some s.utf8ByteSize
  | .array items =>
    if maxNesting ≤ depth then none else itemsWeight? (depth + 1) items.length items
  | .object entries =>
    if maxNesting ≤ depth then none else entriesWeight? (depth + 1) entries.length entries
  | _ => some 0

/-- The cost of items on top of a total. -/
def itemsWeight? (depth total : Nat) : List Value → Option Nat
  | [] => some total
  | v :: vs =>
    match weight? depth v with
    | some w => itemsWeight? depth (total + w) vs
    | none => none

/-- The cost of entries on top of a total. -/
def entriesWeight? (depth total : Nat) : List (String × Value) → Option Nat
  | [] => some total
  | (k, v) :: es =>
    match weight? depth v with
    | some w => entriesWeight? depth (total + k.utf8ByteSize + w) es
    | none => none

end

/-! ### Runs -/

/-- The variables of one call. -/
abbrev Frame := Entries Value

/-- The variables of the calls in progress, the innermost first, and the steps charged. -/
structure Machine where
  frames : List Frame
  steps : Nat

namespace Machine

/-- No call in progress and no step charged. -/
def start : Machine := ⟨[], 0⟩

/-- The value of a variable, from the innermost call that has it. -/
def lookup? (m : Machine) (name : String) : Option Value := m.frames.findSome? (Entries.get? · name)

/-- A variable of the innermost call is set. -/
def declare (m : Machine) (name : String) (v : Value) : Machine :=
  match m.frames with
  | [] => m
  | frame :: outer => { m with frames := frame.insert name v :: outer }

end Machine

/-- A computation on a machine that can fail; the machine is kept when it does. -/
abbrev Run := EStateM ScriptError Machine

/-- The most steps that the counter holds; it stays there when more are charged. -/
def stepCap : Nat := twoTo 64 - 1

/-- Steps are charged, up to a limit. -/
def charge (limit cost : Nat) : Run Unit := fun m =>
  let steps := min (m.steps + cost) stepCap
  if limit < steps then .error (.stepLimitExceeded limit) { m with steps := steps }
  else .ok () { m with steps := steps }

/-- Fails with a fault of type. -/
def fault {α : Type} (f : TypeFault) : Run α := throw (.typeFault f)

/-- The copy of a value is charged. -/
def chargeCopy (limit : Nat) (v : Value) : Run Unit :=
  match weight? 0 v with
  | some w => charge limit w
  | none => throw .nestingTooDeep

/-- The frame of a call: parameters without an argument are null, and of two parameters with one
name the last counts. -/
def bindParams (params : List String) (args : List Value) : Frame :=
  Entries.ofList (params.zip (args ++ List.replicate (params.length - args.length) .null))

/-- A computation inside a call: the frame is there for it and gone behind it. -/
def within {α : Type} (frame : Frame) (run : Run α) : Run α := fun m =>
  match run { m with frames := frame :: m.frames } with
  | .ok v m => .ok v { m with frames := m.frames.tail }
  | .error e m => .error e { m with frames := m.frames.tail }

/-- The value of a variable, if there is one. -/
def lookup? (name : String) : Run (Option Value) := fun m => .ok (m.lookup? name) m

/-- A variable of the innermost call is set. -/
def declare (name : String) (v : Value) : Run Unit := fun m => .ok () (m.declare name v)

end LiveNotes.Script
