import LiveNotes.Files.Disk
import LiveNotes.FrontMatter
import LiveNotes.Store.Source

/-!
A vault on a disk: the Markdown files below a folder are its documents. Hidden files and folders
are left out.

* `FileTree.documents`: the documents in an outline of the vault;
* `Vault.documents`, `Vault.properties`, `Vault.read`, `Vault.write`: the vault on its disk;
* `Vault.source`: the vault as a source of documents.
-/

namespace LiveNotes

/-- Whether a file is a document: its name has the ending of Markdown, and something before it. -/
def isDocumentName (name : String) : Bool :=
  match Text.cutLast? '.' name.toList with
  | some (stem, ending) => !stem.isEmpty && ending == ['m', 'd']
  | none => false

/-- Whether a name is left out of a vault. -/
def isHiddenName (name : String) : Bool := name.toList.head? == some '.'

mutual

/-- The documents at a path and below it. -/
def FileTree.documentsAt (path name : String) : FileTree Unit → List String
  | .file _ => if isDocumentName name then [path] else []
  | .folder entries => entryDocuments path entries

/-- The documents in the entries of a folder and below them. -/
def entryDocuments (parent : String) : List (String × FileTree Unit) → List String
  | [] => []
  | (name, tree) :: rest =>
    (if isHiddenName name then [] else tree.documentsAt (joinPath parent name) name) ++
      entryDocuments parent rest

end

/-- The documents of a vault whose top folder has the name given. Paths start below the top. -/
def FileTree.documents (top : String) (tree : FileTree Unit) : List String :=
  tree.documentsAt "" top

/-- A folder on a disk as a vault. -/
structure Vault (m : Type → Type) where
  disk : Disk m
  root : String

namespace Vault

variable {m : Type → Type} [Monad m]

/-- The path of a document on the disk. -/
def path (vault : Vault m) (document : String) : String :=
  let inside := String.intercalate "/" (segments document)
  if inside.isEmpty then vault.root
  else if vault.root.isEmpty || fileName vault.root == "" then vault.root ++ inside
  else vault.root ++ "/" ++ inside

/-- The documents in the order of their names, folder by folder. -/
def documents (vault : Vault m) : ExceptT SourceError m (List String) := do
  let outline ← ExceptT.adapt (.walk vault.root) (vault.disk.outline vault.root)
  return outline.documents (fileName vault.root)

/-- The error for a document whose file cannot be used. -/
def errorFor (vault : Vault m) (document : String) (cause : FileError) : SourceError :=
  match cause with
  | .missing => .notFound document
  | cause => .io (vault.path document) cause

/-- The text of a document. -/
def read (vault : Vault m) (document : String) : ExceptT SourceError m String :=
  ExceptT.adapt (vault.errorFor document) (vault.disk.read (vault.path document))

/-- The text of a document is set. -/
def write (vault : Vault m) (document text : String) : ExceptT SourceError m Unit :=
  ExceptT.adapt (.io (vault.path document)) (vault.disk.write (vault.path document) text)

/-- The properties of a document. -/
def properties (vault : Vault m) (document : String) : ExceptT SourceError m Properties := do
  match readProperties? (← vault.read document) with
  | some properties => return properties
  | none => throw (.frontMatter document)

/-- The properties of documents, each with what came of reading it. -/
def readAll (vault : Vault m) (documents : List String) :
    m (List (String × Except SourceError Properties)) :=
  documents.mapM fun document => do return (document, ← (vault.properties document).run)

/-- The vault as a source: what its documents hold at this moment. -/
def source (vault : Vault m) : m Source := do
  match ← vault.documents.run with
  | .error e => return ⟨.error e, fun document => .error (.notFound document)⟩
  | .ok documents =>
    let found ← vault.readAll documents
    return ⟨.ok documents, fun document =>
      (Entries.get? found document).getD (.error (.notFound document))⟩

end Vault

end LiveNotes
