import LiveNotes.Settings.Basic
import LiveNotes.Json.Printer
import LiveNotes.Json.Record

/-!
The text of a settings file: a JSON record of the functions and of the limit of steps. Parts that
are missing have their values from the settings when nothing is saved.

* `Settings.fileText`: how settings are written;
* `Settings.ofFileText?`: what a text says, or none when it is no settings file.
-/

namespace LiveNotes

/-- The JSON tree of a function. -/
def CustomFunction.toNode (f : CustomFunction) : Json.Node :=
  .object [("name", .text f.name), ("code", .text f.code)]

/-- The function of a JSON tree. -/
def CustomFunction.ofNode? (node : Json.Node) : Option CustomFunction := do
  match ← node.record? ["name", "code"] with
  | [some name, some code] => return ⟨← name.text?, ← code.text?⟩
  | _ => none

/-- The names of the parts of a settings file. -/
def Settings.partNames : List String := ["customFunctions", "scriptMaxSteps"]

/-- Limits of steps stay below this number. -/
def Settings.stepsBound : Nat := twoTo 64

/-- A part of a record, or what stands for it when it is missing. -/
def partOr {α : Type} (missing : α) (read : Json.Node → Option α) (part : Option Json.Node) :
    Option α :=
  match part with
  | none => some missing
  | some node => read node

namespace Settings

/-- The JSON tree of settings. -/
def toNode (settings : Settings) : Json.Node :=
  .object (partNames.zip
    [.array (settings.functions.map CustomFunction.toNode), .ofNatural settings.maxSteps])

/-- The functions of a JSON tree. -/
def functionsOf? (node : Json.Node) : Option (List CustomFunction) := do
  (← node.items?).mapM CustomFunction.ofNode?

/-- The settings of a JSON tree. -/
def ofNode? (node : Json.Node) : Option Settings := do
  match ← node.record? partNames with
  | [functions, maxSteps] =>
    return ⟨← partOr default.functions functionsOf? functions,
      ← partOr default.maxSteps (Json.Node.natural? stepsBound) maxSteps⟩
  | _ => none

/-- The text of a settings file. -/
def fileText (settings : Settings) : String := settings.toNode.pretty

/-- The settings that a text holds. -/
def ofFileText? (text : String) : Option Settings := (Json.Node.read? text).bind ofNode?

end Settings

end LiveNotes
