import LiveNotes.Script.Call

/-!
Settings: functions saved under names, and the number of steps that a function may take.

* `Settings.save`, `Settings.remove`, `Settings.function?`: functions by their names.
-/

namespace LiveNotes

/-- A function saved under a name. -/
structure CustomFunction where
  name : String
  code : String
deriving DecidableEq, Repr

/-- Saved functions and the limit of steps. -/
structure Settings where
  functions : List CustomFunction
  maxSteps : Nat
deriving DecidableEq, Repr

namespace Settings

/-- The settings when nothing is saved. -/
def default : Settings := ⟨[], Script.defaultLimit⟩

/-- The function of a name. -/
def function? (settings : Settings) (name : String) : Option CustomFunction :=
  settings.functions.find? (·.name == name)

/-- The names of the functions. -/
def names (settings : Settings) : List String := settings.functions.map (·.name)

/-- The settings with another function, unless the name is taken. -/
def save? (settings : Settings) (name code : String) : Option Settings :=
  match settings.function? name with
  | some _ => none
  | none => some { settings with functions := settings.functions ++ [⟨name, code⟩] }

/-- The function of a name with the settings without it. -/
def remove? (settings : Settings) (name : String) : Option (CustomFunction × Settings) :=
  match settings.function? name with
  | none => none
  | some f =>
    some (f, { settings with functions := settings.functions.eraseP (·.name == name) })

end Settings

end LiveNotes
