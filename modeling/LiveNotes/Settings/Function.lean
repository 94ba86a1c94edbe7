import LiveNotes.Settings.Basic
import LiveNotes.Query.Parser

/-!
Saving functions by hand. A function is saved only under a name that a query can call and that is
not taken, and only if its code compiles.

* `CustomFunction.checked`: a function of a name and code that were checked;
* `Settings.add`, `Settings.take`: the settings with another function, or with one less.
-/

namespace LiveNotes

/-- Why a function is not saved or not removed. -/
inductive FunctionError where
  | invalidName (name : String)
  | doesNotCompile (name : String) (e : Script.ScriptError)
  | taken (name : String)
  | unknown (name : String)

/-- The message of an error. -/
def FunctionError.message : FunctionError → String
  | .invalidName name => "'" ++ name ++ "' is not a valid function name"
  | .doesNotCompile name e => "custom function '" ++ name ++ "' does not compile: " ++ e.message
  | .taken name => "custom function '" ++ name ++ "' already exists"
  | .unknown name => "custom function '" ++ name ++ "' does not exist"

/-- Whether a function can be saved under a name. -/
def isCustomName (name : String) : Bool :=
  isFunctionName name.toList && (FunctionKind.builtin? name).isNone

/-- A function of a name and code: the name is looked at first. Blanks around the code are left
out. -/
def CustomFunction.checked (name code : String) : Except FunctionError CustomFunction :=
  if isCustomName name then
    match Script.compile code with
    | .ok _ => .ok ⟨name, Text.trimmed code⟩
    | .error e => .error (.doesNotCompile name e)
  else .error (.invalidName name)

namespace Settings

/-- The settings with another function. -/
def add (settings : Settings) (f : CustomFunction) : Except FunctionError Settings :=
  match settings.save? f.name f.code with
  | some settings => .ok settings
  | none => .error (.taken f.name)

/-- The function of a name, and the settings without it. -/
def take (settings : Settings) (name : String) : Except FunctionError (CustomFunction × Settings) :=
  match settings.remove? name with
  | some found => .ok found
  | none => .error (.unknown name)

end Settings

end LiveNotes
