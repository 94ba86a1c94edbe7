import LiveNotes.Script.Eval

/-!
Functions from their text, and calls of them. Each call starts on a fresh machine, so nothing
carries over from one to the next.

* `compile`: a text as a function;
* `invoke`, `outcome`: what a call gives, without and with the steps that it charges.
-/

namespace LiveNotes.Script

/-- The number of steps that a call may take if nothing else is said. -/
def defaultLimit : Nat := 100000

/-- The function that a text is. -/
def compile (code : String) : Except ScriptError Lambda :=
  match parseFunction code with
  | .ok f => .ok f
  | .error e => .error (.malformed e)

/-- What a call gives, with the steps charged; as many arguments are needed as there are
parameters. -/
def outcome (limit : Nat) (f : Lambda) (args : List Value) : Except ScriptError Value × Nat :=
  if args.length = f.arity then
    match call limit f args Machine.start with
    | .ok v m => (.ok v, m.steps)
    | .error e m => (.error e, m.steps)
  else (.error (.arity f.arity args.length), 0)

/-- What a call gives. -/
def invoke (limit : Nat) (f : Lambda) (args : List Value) : Except ScriptError Value :=
  (outcome limit f args).1

end LiveNotes.Script
