import LiveNotes.Files.Disk
import LiveNotes.Files.Path
import LiveNotes.Settings.File

/-!
Where settings are kept: in a file on a disk, or in memory.

* `Settings.load`: the settings of a file; where there is none, nothing is saved yet;
* `Settings.store`: settings are written to a file, in a folder that is made if need be;
* `SettingsStore`: a place that settings are loaded from and saved to.
-/

namespace LiveNotes

/-- Why settings cannot be loaded or stored. -/
inductive SettingsError where
  | io (path : String) (cause : FileError)
  | malformed
deriving DecidableEq, Repr

/-- The message of an error. -/
def SettingsError.message : SettingsError → String
  | .io path cause => "cannot access settings file " ++ path ++ ": " ++ cause.message
  | .malformed => "invalid settings: the text is no record of settings"

namespace Settings

variable {m : Type → Type} [Monad m]

/-- The settings that the text of a file holds; without a file, those when nothing is saved. -/
def ofFile (path : String) (text : Except FileError String) : Except SettingsError Settings :=
  match text with
  | .error .missing => .ok default
  | .error cause => .error (.io path cause)
  | .ok text =>
    match ofFileText? text with
    | some settings => .ok settings
    | none => .error .malformed

/-- The settings of a file. -/
def load (disk : Disk m) (path : String) : ExceptT SettingsError m Settings :=
  .mk do return ofFile path (← (disk.read path).run)

/-- The settings of a file if one is given, else those when nothing is saved. -/
def loadFrom? (disk : Disk m) (path : Option String) : ExceptT SettingsError m Settings :=
  match path with
  | some path => load disk path
  | none => return default

/-- The folder of a file is made, if the path names one. -/
def makeParent (disk : Disk m) (path : String) : ExceptT FileError m Unit :=
  match folderPath path with
  | "" => return ()
  | folder => disk.makeFolder folder

/-- Settings are written to a file. -/
def store (disk : Disk m) (path : String) (settings : Settings) : ExceptT SettingsError m Unit :=
  ExceptT.adapt (.io path) do
    makeParent disk path
    disk.write path settings.fileText

end Settings

/-- A place where settings are kept from one call to the next. -/
structure SettingsStore (m : Type → Type) where
  /-- The settings that are kept there. -/
  load : ExceptT SettingsError m Settings
  /-- Settings are kept there in place of those before. -/
  save : Settings → ExceptT SettingsError m Unit

namespace SettingsStore

/-- A file as a store. -/
def file {m : Type → Type} [Monad m] (disk : Disk m) (path : String) : SettingsStore m where
  load := Settings.load disk path
  save := Settings.store disk path

/-- Settings in memory as a store. -/
def inMemory : SettingsStore (StateM Settings) where
  load := do return ← get
  save settings := set settings

end SettingsStore

end LiveNotes
