import LiveNotes.Entries
import LiveNotes.Files.Error
import LiveNotes.Files.Path

/-!
Files and folders as a tree. A path leads through the tree from its top: one dot stays in a folder,
two dots lead back to the one around it.

* `FileTree.way`: where a path leads;
* `FileTree.read`, `FileTree.write`, `FileTree.makeFolder`: what is done to the tree at a path.
-/

namespace LiveNotes

/-- A file with its content, or a folder with what it holds. -/
inductive FileTree (α : Type) where
  | file (content : α)
  | folder (entries : List (String × FileTree α))
deriving Inhabited

namespace FileTree

variable {α : Type}

/-- The entries of a folder; nothing else has any. -/
def entriesOf (tree : Option (FileTree α)) : Entries (FileTree α) :=
  match tree with
  | some (.folder entries) => entries
  | _ => []

/-- What is found at the end of a row of names. -/
def find? (tree : FileTree α) : List String → Option (FileTree α)
  | [] => some tree
  | name :: names =>
    match Entries.get? (entriesOf (some tree)) name with
    | none => none
    | some tree => find? tree names

/-- What stands at the end of a row of names is set; folders on the way are made. -/
def put (tree : Option (FileTree α)) (names : List String) (value : FileTree α) : FileTree α :=
  match names with
  | [] => value
  | name :: names =>
    let entries := entriesOf tree
    .folder (Entries.insert entries name (put (Entries.get? entries name) names value))

/-- The most bytes of a name. -/
def longestName : Nat := 255

/-- One part of a path: from the end of a row of names, which has to be a folder, to another one. -/
def step (tree : FileTree α) (names : List String) (part : String) :
    Except FileError (List String) :=
  match tree.find? names with
  | none => .error .missing
  | some (.file _) => .error .notFolder
  | some (.folder _) =>
    if part == "" || part == "." then .ok names
    else if part == ".." then .ok names.dropLast
    else if longestName < part.utf8ByteSize then .error .nameTooLong
    else .ok (names ++ [part])

/-- The row of names that a path leads along. What stands at its end need not be there. -/
def way (tree : FileTree α) (path : String) : Except FileError (List String) :=
  if path.toList.contains '\x00' then
    .error (.other "file name contained an unexpected NUL byte")
  else (slashParts path).foldlM tree.step []

/-- What stands at a path. -/
def lookup (tree : FileTree α) (path : String) : Except FileError (FileTree α) := do
  match tree.find? (← tree.way path) with
  | some found => return found
  | none => throw .missing

/-- The content of the file at a path. -/
def read (tree : FileTree α) (path : String) : Except FileError α := do
  match ← tree.lookup path with
  | .file content => return content
  | .folder _ => throw .isFolder

/-- The tree with a file at a path, inside a folder that is there. -/
def write (tree : FileTree α) (path : String) (content : α) : Except FileError (FileTree α) := do
  let names ← tree.way path
  match tree.find? names with
  | some (.folder _) => throw .isFolder
  | _ => return put (some tree) names (.file content)

/-- The tree with a folder where a part of a path leads to nothing, and the row of names there. -/
def makeStep (made : FileTree α × List String) (part : String) :
    Except FileError (FileTree α × List String) := do
  let (tree, names) := made
  let names ← tree.step names part
  match tree.find? names with
  | some _ => return (tree, names)
  | none => return (put (some tree) names (.folder []), names)

/-- The tree with a folder at a path, and folders on the way there. -/
def makeFolder (tree : FileTree α) (path : String) : Except FileError (FileTree α) := do
  let (tree, _) ← (slashParts path).foldlM makeStep (tree, [])
  return tree

/-! ### The order of names -/

mutual

/-- The names in a tree, without the contents of files; each folder in the order of its names. -/
def outline : FileTree α → FileTree Unit
  | .file _ => .file ()
  | .folder entries =>
    .folder ((outlines entries).mergeSort fun a b => decide (a.1 ≤ b.1))

/-- The names in the entries of a folder. -/
def outlines : List (String × FileTree α) → List (String × FileTree Unit)
  | [] => []
  | (name, tree) :: rest => (name, tree.outline) :: outlines rest

end

end FileTree

end LiveNotes
