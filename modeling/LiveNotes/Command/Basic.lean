import LiveNotes.Command.Error
import LiveNotes.Manual
import LiveNotes.Markup
import LiveNotes.Store.Basic
import LiveNotes.Store.Vault

/-!
What the program does with a vault and a settings file. Settings are loaded before anything else is
looked at, and the vault is read only for a query that can be parsed.

* `parseCommand`, `evaluate`: a query by itself, and its value for a note;
* `listPaths`, `previewPath`: the paths of a vault with their previews;
* `renderNote`: the spans of a note with their values;
* `listFunctions`, `addFunction`, `removeFunction`: the functions of a store of settings;
* `manualText`: a part of the manual.
-/

namespace LiveNotes.Command

variable {m : Type → Type} [Monad m]

/-- The settings of a file if one is given, else those when nothing is saved. -/
def loadSettings (disk : Disk m) (path : Option String) : ExceptT CommandError m Settings :=
  ExceptT.adapt .settings (Settings.loadFrom? disk path)

/-- A store of a source, with a note as the active document if one is given. -/
def storeOf (source : Source) (note : Option String) : Except SourceError PropertyStore := do
  let store ← PropertyStore.ofSource source
  match note with
  | none => return store
  | some note =>
    let (outcome, store) := store.refreshFor source note
    outcome
    return store

/-- The store of a vault, with a note as the active document if one is given. -/
def openStore (vault : Vault m) (note : Option String) : ExceptT CommandError m PropertyStore :=
  ExceptT.adapt .source (.mk do return storeOf (← vault.source) note)

/-- What the queries of a note are computed from. -/
def contextOf (store : PropertyStore) (settings : Settings) (note : String) : Context :=
  ⟨note, store.tree, settings.functions, settings.maxSteps⟩

/-- A text as a query that may call saved functions. -/
def queryOf (settings : Settings) (text : String) : Except CommandError Query :=
  (parseQuery settings.names text).mapError .query

/-- The query that a text is. -/
def parseCommand (disk : Disk m) (settings : Option String) (text : String) :
    ExceptT CommandError m Query := do
  queryOf (← loadSettings disk settings) text

/-- The value of a query for a note. -/
def evaluate (vault : Vault m) (settings : Option String) (note text : String) :
    ExceptT CommandError m Value := do
  let settings ← loadSettings vault.disk settings
  let query ← queryOf settings text
  let store ← openStore vault (some note)
  match query.value? (contextOf store settings note) with
  | some v => return v
  | none => throw (.noValue text)

/-- Which paths are listed: those with a text in them or at their start, of a whole vault or of its
active document. -/
structure PathFilter where
  text : String
  atStart : Bool
  onlyLocal : Bool
deriving DecidableEq, Repr

/-- The paths that a filter lets through. -/
def PathFilter.paths (filter : PathFilter) (store : PropertyStore) : List String :=
  match filter.onlyLocal, filter.atStart with
  | true, true =>
    (store.localPathsContaining filter.text).filter fun path =>
      filter.text.toList.isPrefixOf path.toList
  | true, false => store.localPathsContaining filter.text
  | false, true => store.pathsStartingWith filter.text
  | false, false => store.pathsContaining filter.text

/-- Paths with previews of their values. -/
def listPaths (vault : Vault m) (note : Option String) (filter : PathFilter) :
    ExceptT CommandError m (List (String × String)) := do
  let store ← openStore vault note
  return (filter.paths store).map fun path => (path, store.preview path)

/-- The preview of the value at a path. -/
def previewPath (vault : Vault m) (note : Option String) (path : String) :
    ExceptT CommandError m String := do
  return (← openStore vault note).preview path

/-- A rendered text, and whether rendering changed it. -/
structure Rendering where
  text : String
  changed : Bool
deriving DecidableEq, Repr

/-- A note with its spans computed anew. If it is asked for, a text that changed is written back. -/
def renderNote (vault : Vault m) (settings : Option String) (note : String) (writeBack : Bool) :
    ExceptT CommandError m Rendering := do
  let settings ← loadSettings vault.disk settings
  let store ← openStore vault (some note)
  let body ← ExceptT.adapt .source (vault.read note)
  let text := render settings.names (contextOf store settings note) body
  let changed := text != body
  if writeBack && changed then
    ExceptT.adapt .source (vault.write note text)
  return ⟨text, changed⟩

/-! ### Functions and manual -/

/-- The settings of a store. -/
def loadStored (store : SettingsStore m) : ExceptT CommandError m Settings :=
  ExceptT.adapt .settings store.load

/-- The settings of a store are set. -/
def saveStored (store : SettingsStore m) (settings : Settings) : ExceptT CommandError m Unit :=
  ExceptT.adapt .settings (store.save settings)

/-- The functions of a store. -/
def listFunctions (store : SettingsStore m) : ExceptT CommandError m (List CustomFunction) := do
  return (← loadStored store).functions

/-- What comes of checking a function, as a part of a command. -/
def ofCheck {α : Type} (result : Except FunctionError α) : ExceptT CommandError m α :=
  .mk (return result.mapError .function)

/-- A function is added to a store. Its name and code are looked at before the store. -/
def addFunction (store : SettingsStore m) (name code : String) : ExceptT CommandError m Unit := do
  let f ← ofCheck (CustomFunction.checked name code)
  let settings ← loadStored store
  let settings ← ofCheck (settings.add f)
  saveStored store settings

/-- A function is taken out of a store. -/
def removeFunction (store : SettingsStore m) (name : String) :
    ExceptT CommandError m CustomFunction := do
  let settings ← loadStored store
  let (f, settings) ← ofCheck (settings.take name)
  saveStored store settings
  return f

/-- The manual on a category. -/
def manualText (name : String) : Except CommandError String :=
  match Manual.Category.ofName? name with
  | some category => .ok category.text
  | none => .error (.unknownCategory name)

end LiveNotes.Command
