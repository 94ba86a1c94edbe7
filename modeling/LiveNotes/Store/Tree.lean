import LiveNotes.Path
import LiveNotes.Files.Path

/-!
The property tree: the folders of a vault, with the properties of its documents at the leaves.

* `PropertyTree.insert`: a document at its path;
* `PropertyTree.document?`: the properties of a document;
* `PropertyTree.get?`: the value at a global path, which leads through folders to a document and on
  into its properties;
* `PropertyTree.paths`: all global paths.
-/

namespace LiveNotes

/-- A folder with its entries, or a document with its properties. -/
inductive PropertyNode where
  | document (properties : Properties)
  | folder (entries : List (String × PropertyNode))

/-- The entries of the top folder. -/
abbrev PropertyTree := Entries PropertyNode

namespace PropertyTree

/-- The entries of a folder; nothing else has any. -/
def entriesOf (node : Option PropertyNode) : PropertyTree :=
  match node with
  | some (.folder entries) => entries
  | _ => []

/-- A document is set at the end of a way through folders. A folder on the way that is missing, or
is a document, becomes a new one. -/
def insertAt (tree : PropertyTree) (way : List String) (properties : Properties) : PropertyTree :=
  match way with
  | [] => tree
  | [name] => Entries.insert tree name (.document properties)
  | name :: way =>
    Entries.insert tree name
      (.folder (insertAt (entriesOf (Entries.get? tree name)) way properties))

/-- A document is set at its path. -/
def insert (tree : PropertyTree) (path : String) (properties : Properties) : PropertyTree :=
  tree.insertAt (segments path) properties

/-- The node at the end of a way. -/
def nodeAt? (tree : PropertyTree) : List String → Option PropertyNode
  | [] => none
  | [name] => Entries.get? tree name
  | name :: way => nodeAt? (entriesOf (Entries.get? tree name)) way

/-- The document or folder at a path. -/
def node? (tree : PropertyTree) (path : String) : Option PropertyNode := tree.nodeAt? (segments path)

/-- The properties of the document at a path. -/
def document? (tree : PropertyTree) (path : String) : Option Properties :=
  match tree.node? path with
  | some (.document properties) => some properties
  | _ => none

/-- The value at the end of the parts of a global path: of the first document on the way, all its
properties or the value at the rest of the path. -/
def valueAt? (tree : PropertyTree) : List String → Option Value
  | [] => none
  | name :: rest =>
    match Entries.get? tree name with
    | none => none
    | some (.folder entries) => valueAt? entries rest
    | some (.document properties) =>
      if rest.isEmpty then some (.object properties)
      else properties.lookup? (String.intercalate "/" rest)

/-- The value at a global path. -/
def get? (tree : PropertyTree) (path : String) : Option Value := tree.valueAt? (slashParts path)

end PropertyTree

/-- The paths of properties inside a document. -/
def Properties.pathsIn (document : String) (properties : Properties) : List String :=
  properties.flatten.map fun (path, _) => document ++ "/" ++ path

mutual

/-- The path of a node and those of all that it holds. -/
def PropertyNode.pathsAt (path : String) : PropertyNode → List String
  | .document properties => path :: properties.pathsIn path
  | .folder entries => path :: entryPaths path entries

/-- The paths of the entries of a folder and of all that they hold. -/
def entryPaths (parent : String) : List (String × PropertyNode) → List String
  | [] => []
  | (name, node) :: rest => node.pathsAt (joinPath parent name) ++ entryPaths parent rest

end

/-- All global paths: folders and documents before what they hold. -/
def PropertyTree.paths (tree : PropertyTree) : List String := entryPaths "" tree

/-! ### Equality -/

mutual

/-- Equality of nodes, without regard to the order of entries. -/
def PropertyNode.beq : PropertyNode → PropertyNode → Bool
  | .document a, .document b => Value.sameProperties a b
  | .folder a, .folder b => a.length == b.length && beqFolders a b
  | _, _ => false

/-- Whether every entry is found, with an equal node, in the other entries. -/
def beqFolders : List (String × PropertyNode) → List (String × PropertyNode) → Bool
  | [], _ => true
  | (name, a) :: rest, bs =>
    (match Entries.get? bs name with
    | some b => a.beq b
    | none => false) && beqFolders rest bs

end

/-- Equality of trees, without regard to the order of entries. -/
def PropertyTree.beq (a b : PropertyTree) : Bool := a.length == b.length && beqFolders a b

end LiveNotes
