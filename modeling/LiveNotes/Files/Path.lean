import LiveNotes.Text.Search

/-!
Paths of files and folders: names with slashes between them.

* `segments`: the names on the way, empty ones left out;
* `joinPath`, `folderPath`, `fileName`: a name put behind a path, and a path taken apart.
-/

namespace LiveNotes

/-- The parts of a text between slashes. -/
def slashParts (path : String) : List String :=
  (Text.splitAt '/' path.toList).map String.ofList

/-- The names on the way to a document or folder; empty ones are left out. -/
def segments (path : String) : List String := (slashParts path).filter fun s => !s.isEmpty

/-- A name inside a folder whose path is given; the top folder has the empty path. -/
def joinPath (parent name : String) : String := if parent.isEmpty then name else parent ++ "/" ++ name

/-- The folder that a path is in, as far as the path tells. -/
def folderPath (path : String) : String :=
  match Text.cutLast? '/' path.toList with
  | some (folder, _) => .ofList folder
  | none => ""

/-- The name at the end of a path. -/
def fileName (path : String) : String :=
  match Text.cutLast? '/' path.toList with
  | some (_, name) => .ofList name
  | none => path

end LiveNotes
