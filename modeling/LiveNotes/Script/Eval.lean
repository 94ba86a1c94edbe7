import LiveNotes.Script.Callback
import LiveNotes.Script.Global

/-!
Evaluation of expressions and calls of functions. A function is no value: it is written where a
method of an array takes it, and called there.

* `eval`, `evalAll`, `evalFields`, `perform`, `runStatements`: one function for each kind of
  syntax;
* `callbackOf?`, `startOf?`: what a method that takes a function finds among its arguments;
* `call`: a function with arguments, in a frame of its own.
-/

namespace LiveNotes.Script

open Number

/-- A member of a value. -/
def member (target : Value) (name : String) : Run Value :=
  match target with
  | .null => fault (.memberOfNull name)
  | .object entries => return (Entries.get? entries name).getD .null
  | .string s => return if name = "length" then .integer (Int64.ofNat s.length) else .null
  | .array items => return if name = "length" then .integer (Int64.ofNat items.length) else .null
  | _ => return .null

/-- An item, a character or a member of a value. -/
def index (target key : Value) : Run Value :=
  match target with
  | .array items =>
    if key.isNumber then return ((offset? key).bind fun i => items[i]?).getD .null
    else member target key.toText
  | .string s =>
    if key.isNumber then
      return match (offset? key).bind fun i => s.toList[i]? with
        | some c => textValue [c]
        | none => .null
    else member target key.toText
  | target => member target key.toText

/-- The value of a variable, a copy that is charged, or of a name that has one without. -/
def readName (limit : Nat) (name : String) : Run Value := do
  match ← lookup? name with
  | some v => do
    chargeCopy limit v
    return v
  | none =>
    if name = "NaN" then return .float Double.nan
    else if name = "Infinity" then return .float Double.infinity
    else if (Global.ofName? name).isSome then fault (.globalAsValue name)
    else throw (.undefinedVariable name)

/-- The global that an expression names, if no variable hides it. -/
def globalOf? (e : Expr) : Run (Option Global) :=
  match e with
  | .identifier name => do
    match ← lookup? name with
    | some _ => return none
    | none => return Global.ofName? name
  | _ => return none

/-- The value of an arithmetic operator; `+` joins texts, which is charged. -/
def arithmetic (limit : Nat) (op : Arith) (a b : Value) : Run Value :=
  if op = .add ∧ (a.joins || b.joins) then do
    let s := a.toText
    let t := b.toText
    charge limit (s.utf8ByteSize + t.utf8ByteSize)
    return .string (s ++ t)
  else return numeric op a b

/-- A name called as a function, its arguments still to be evaluated. -/
def callName (callee : String) (args : Run (List Value)) : Run Value := do
  match ← lookup? callee with
  | some _ => throw (.notCallable callee)
  | none =>
    match Global.ofName? callee with
    | none => throw (.undefinedVariable callee)
    | some g => do
      match g.call? (← args) with
      | some v => return v
      | none => throw (.notCallable callee)

/-- A member of a global called with arguments still to be evaluated; a text that it gives is
charged. -/
def callGlobalMethod (limit : Nat) (g : Global) (method : String) (args : Run (List Value)) :
    Run Value := do
  match g.method method (← args) with
  | .error e => throw e
  | .ok (.string s) => do
    charge limit s.utf8ByteSize
    return .string s
  | .ok v => return v

/-- A method of a value that takes no function, with arguments still to be evaluated. -/
def callPlainMethod (limit : Nat) (target : Value) (method : String) (args : Run (List Value)) :
    Run Value :=
  let unknown : Run Value := throw (.unknownMethod target.kind.word method)
  match target with
  | .string s => do
    let values ← args
    match TextMethod.ofName? method with
    | some m => m.run limit s values
    | none => unknown
  | .array items => do
    let values ← args
    match ArrayMethod.ofName? method with
    | some m => m.run limit items values
    | none => unknown
  | .integer _ | .float _ => do
    let values ← args
    match NumberMethod.ofName? method with
    | some m => return m.value target values
    | none => unknown
  | .boolean _ => if method = "toString" then return .string target.toText else unknown
  | .null => fault (.memberOfNull method)
  | .object _ => unknown

/-- A method of a value, with the function and the start of a fold if they are written, and with
all arguments still to be evaluated. -/
def callMethod (limit : Nat) (target : Value) (method : String) (f : Option Callback)
    (initial : Option (Run Value)) (args : Run (List Value)) : Run Value :=
  match target, ItemMethod.ofName? method with
  | .array items, some m =>
    match f with
    | some f => m.run limit items f initial
    | none => fault (.callbackExpected method)
  | target, _ => callPlainMethod limit target method args

/-- A call of a function whose body is a computation. -/
def callBody (limit : Nat) (params : List String) (body : Run Value) (args : List Value) :
    Run Value := do
  charge limit 1
  within (bindParams params args) body

mutual

/-- The value of an expression. -/
def eval (limit : Nat) : Expr → Run Value
  | .float x => do charge limit 1; return .float x
  | .integer n => do charge limit 1; return .integer n
  | .string s => do charge limit 1; return .string s
  | .boolean b => do charge limit 1; return .boolean b
  | .null => do charge limit 1; return .null
  | .identifier name => do
    charge limit 1
    readName limit name
  | .member object name => do
    charge limit 1
    match ← globalOf? object with
    | some .math => return mathConstant name
    | _ => member (← eval limit object) name
  | .index object key => do
    charge limit 1
    let target ← eval limit object
    let key ← eval limit key
    index target key
  | .unary op operand => do
    charge limit 1
    return op.apply (← eval limit operand)
  | .binary op left right => do
    charge limit 1
    let a ← eval limit left
    match op with
    | .logic op => if op.keeps a then return a else eval limit right
    | .arith op => arithmetic limit op a (← eval limit right)
    | .comparison op => return .boolean (op.holds a (← eval limit right))
  | .conditional condition yes no => do
    charge limit 1
    let truth ← eval limit condition
    if truth.isTruthy then eval limit yes else eval limit no
  | .call callee args => do
    charge limit 1
    callName callee (evalAll limit [] args)
  | .methodCall object method args => do
    charge limit 1
    match ← globalOf? object with
    | some g => callGlobalMethod limit g method (evalAll limit [] args)
    | none => do
      let target ← eval limit object
      callMethod limit target method (callbackOf? limit args) (startOf? limit args)
        (evalAll limit [] args)
  | .function _ _ => do
    charge limit 1
    fault .functionAsValue
  | .object fields => do
    charge limit 1
    return .object (← evalFields limit [] fields)
  | .array items => do
    charge limit 1
    return .array (← evalAll limit [] items)

/-- The function written first among the arguments of a method. -/
def callbackOf? (limit : Nat) : List Expr → Option Callback
  | .function params body :: _ => some ⟨params.length, callBody limit params (perform limit body)⟩
  | _ => none

/-- The start of a fold, written behind the function. -/
def startOf? (limit : Nat) : List Expr → Option (Run Value)
  | _ :: start :: _ => some (eval limit start)
  | _ => none

/-- The values of expressions, behind those already there, last one first. -/
def evalAll (limit : Nat) (done : List Value) : List Expr → Run (List Value)
  | [] => return done.reverse
  | e :: es => do
    let v ← eval limit e
    evalAll limit (v :: done) es

/-- The entries of an object, on top of those already there. -/
def evalFields (limit : Nat) (done : Entries Value) : List (String × Expr) → Run (Entries Value)
  | [] => return done
  | (name, e) :: fields => do
    let v ← eval limit e
    evalFields limit (done.insert name v) fields

/-- The value that the body of a function gives. -/
def perform (limit : Nat) : Body → Run Value
  | .expr e => eval limit e
  | .block statements => runStatements limit statements

/-- The value that statements give: that of the first `return`, else null. -/
def runStatements (limit : Nat) : List Statement → Run Value
  | [] => return .null
  | .declare name e :: rest => do
    charge limit 1
    let v ← eval limit e
    declare name v
    runStatements limit rest
  | .give e :: _ => do
    charge limit 1
    eval limit e
  | .expression e :: rest => do
    charge limit 1
    let _ ← eval limit e
    runStatements limit rest

end

/-- A function called with arguments. -/
def call (limit : Nat) (f : Lambda) (args : List Value) : Run Value :=
  callBody limit f.params (perform limit f.body) args

end LiveNotes.Script
