import LiveNotes.Files.Error
import LiveNotes.Store.Tree

/-!
Where documents come from: a list of their paths, and the properties of each. A vault in memory is
such a source; it can be told that some of its documents, or its listing, cannot be read.

* `Source.tree`: the property tree of a source;
* `MemoryVault`: documents in memory, in the order in which they came.
-/

namespace LiveNotes

/-- Why documents cannot be listed, read or written. -/
inductive SourceError where
  | notFound (document : String)
  | walk (path : String) (cause : FileError)
  | io (path : String) (cause : FileError)
  | frontMatter (document : String)
deriving DecidableEq, Repr

/-- The message of an error. -/
def SourceError.message : SourceError → String
  | .notFound document => "document not found: " ++ document
  | .walk path cause =>
    "cannot walk vault: IO error for operation on " ++ path ++ ": " ++ cause.message
  | .io path cause => "cannot read " ++ path ++ ": " ++ cause.message
  | .frontMatter document => "invalid front matter in " ++ document

/-- A source of documents: their paths, and the properties at a path. -/
structure Source where
  documents : Except SourceError (List String)
  properties : String → Except SourceError Properties

/-- The tree of all documents of a source; one that cannot be read has no properties. -/
def Source.tree (source : Source) : Except SourceError PropertyTree := do
  let paths ← source.documents
  return paths.foldl
    (fun tree path => tree.insert path ((source.properties path).toOption.getD [])) []

/-- Documents in memory. -/
structure MemoryVault where
  documents : Entries Properties
  unreadable : List String
  unlisted : Bool

namespace MemoryVault

/-- A vault without documents. -/
def empty : MemoryVault := ⟨[], [], false⟩

/-- A document is added, or its properties are replaced. -/
def insert (vault : MemoryVault) (path : String) (properties : Properties) : MemoryVault :=
  { vault with documents := Entries.insert vault.documents path properties }

/-- A document is taken out. -/
def remove (vault : MemoryVault) (path : String) : MemoryVault :=
  { vault with documents := Entries.erase vault.documents path }

/-- A document can no longer be read. -/
def spoil (vault : MemoryVault) (path : String) : MemoryVault :=
  { vault with unreadable := path :: vault.unreadable }

/-- A document can be read again. -/
def mend (vault : MemoryVault) (path : String) : MemoryVault :=
  { vault with unreadable := vault.unreadable.filter (· != path) }

/-- The properties of a document. -/
def properties (vault : MemoryVault) (path : String) : Except SourceError Properties :=
  if vault.unreadable.contains path then .error (.notFound path)
  else
    match Entries.get? vault.documents path with
    | some properties => .ok properties
    | none => .error (.notFound path)

/-- A vault as a source. -/
def source (vault : MemoryVault) : Source where
  documents := if vault.unlisted then .error (.notFound "vault") else .ok (Entries.keys vault.documents)
  properties := vault.properties

end MemoryVault

end LiveNotes
