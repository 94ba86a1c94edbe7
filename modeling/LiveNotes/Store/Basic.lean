import LiveNotes.Store.Source
import LiveNotes.Value.Inline

/-!
The property store: the tree of a vault as it was at the last refresh, and the lists of its paths.
One document can be active; its properties are found by their paths inside it, before the global
ones.

* `PropertyStore.refresh`, `PropertyStore.refreshFor`: the tree is built anew from a source;
* `PropertyStore.get?`: the value at a local or global path;
* `PropertyStore.pathsContaining` and its likes: suggestions.
-/

namespace LiveNotes

/-- The most characters of a preview. -/
def previewLength : Nat := 50

/-- The preview of what has no value. -/
def noValue : String := "no value"

/-- A tree with the active document, and the paths that it is searched by. -/
structure PropertyStore where
  tree : PropertyTree
  active : Option String
  localProperties : Option Properties
  localPaths : List String
  allPaths : List String

namespace PropertyStore

/-- A store before its first refresh. -/
def empty : PropertyStore := ⟨[], none, none, [], []⟩

/-- The store with the local scope and the paths that its tree and its active document give. -/
def reindex (store : PropertyStore) : PropertyStore :=
  let properties := store.active.bind store.tree.document?
  let paths := (properties.elim [] Properties.flatten).map (·.1)
  { store with
    localProperties := properties
    localPaths := paths
    allPaths := paths ++ store.tree.paths }

/-- The tree is built anew. If the source fails, the store stays as it is. -/
def refresh (store : PropertyStore) (source : Source) : Except SourceError Unit × PropertyStore :=
  match source.tree with
  | .ok tree => (.ok (), reindex { store with tree := tree })
  | .error e => (.error e, store)

/-- A document becomes the active one, and the tree is built anew. -/
def refreshFor (store : PropertyStore) (source : Source) (document : String) :
    Except SourceError Unit × PropertyStore :=
  refresh { store with active := some document } source

/-- A store of a source. -/
def ofSource (source : Source) : Except SourceError PropertyStore :=
  match empty.refresh source with
  | (.ok (), store) => .ok store
  | (.error e, _) => .error e

/-- The value at a path inside the active document, or else at a global path. -/
def get? (store : PropertyStore) (path : String) : Option Value :=
  match store.localProperties.bind (·.lookup? path) with
  | some v => some v
  | none => store.tree.get? path

/-- Whether one text occurs in another. -/
def occurs (part text : String) : Bool := Text.occursIn part.toList text.toList

/-- The paths with a text in them, local ones first. -/
def pathsContaining (store : PropertyStore) (part : String) : List String :=
  store.allPaths.filter (occurs part)

/-- The paths that start with a text, local ones first. -/
def pathsStartingWith (store : PropertyStore) (start : String) : List String :=
  store.allPaths.filter fun path => start.toList.isPrefixOf path.toList

/-- The local paths with a text in them. -/
def localPathsContaining (store : PropertyStore) (part : String) : List String :=
  store.localPaths.filter (occurs part)

/-- Paths with the texts of their values. -/
def withTexts (store : PropertyStore) (paths : List String) : List (String × String) :=
  paths.map fun path => (path, (store.get? path).elim "" Value.inline)

/-- The start of the text of a value. -/
def preview (store : PropertyStore) (path : String) : String :=
  match store.get? path with
  | none | some .null => noValue
  | some v => truncate v.inline previewLength

end PropertyStore

end LiveNotes
