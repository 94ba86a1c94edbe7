import LiveNotes.Proofs.Text.Search
import LiveNotes.Store.Source

/-!
The property tree of a source: what stands at a path, and the list of all paths.

* `slashParts_intercalate`, `segments_intercalate`: names put together with slashes and taken apart
  again;
* `PropertyTree.Proper`: every folder has names for its entries, each one once; the tree of a source is
  proper (`Source.proper_tree`);
* `HasDocument`: a document of the tree with its path and its properties;
* `mem_paths_iff`: the paths listed are those of folders, documents, and properties of documents;
* `HasDocument.get?_append`: behind the path of a document a path leads on into its properties.
-/

namespace LiveNotes

open Text

/-! ### Names and paths -/

/-- A name of a document or folder: not empty, and without a slash. -/
structure IsName (name : String) : Prop where
  ne_empty : name ≠ ""
  slash_not_mem : '/' ∉ name.toList

theorem slashParts_intercalate {names : List String} (h : ∀ name ∈ names, '/' ∉ name.toList)
    (hne : names ≠ []) : slashParts (String.intercalate "/" names) = names := by
  have hs : "/".toList = ['/'] := rfl
  rw [slashParts, splitAt_eq_splitOn, String.toList_intercalate, hs, List.splitOn_intercalate]
  · simp
  · simpa using h
  · simpa using hne

theorem intercalate_slashParts (path : String) : String.intercalate "/" (slashParts path) = path := by
  have hs : "/".toList = ['/'] := rfl
  have hid : (slashParts path).map String.toList = path.toList.splitOn '/' := by
    simp [slashParts, splitAt_eq_splitOn]
  rw [← String.toList_inj, String.toList_intercalate, hs, hid]
  exact List.intercalate_splitOn '/'

theorem slashParts_ne_nil (path : String) : slashParts path ≠ [] := by
  rw [slashParts, splitAt_eq_splitOn]
  simp

theorem not_mem_of_mem_slashParts {name path : String} (h : name ∈ slashParts path) :
    '/' ∉ name.toList := by
  rw [slashParts, splitAt_eq_splitOn] at h
  obtain ⟨part, hp, rfl⟩ := List.mem_map.1 h
  rw [String.toList_ofList]
  exact not_mem_of_mem_splitOn hp

theorem slashParts_of_not_mem {name : String} (h : '/' ∉ name.toList) : slashParts name = [name] := by
  have hp := slashParts_intercalate (List.forall_mem_singleton.2 h) (List.cons_ne_nil name [])
  rwa [String.intercalate_singleton] at hp

theorem isName_of_mem_segments {name path : String} (h : name ∈ segments path) : IsName name := by
  obtain ⟨hm, hne⟩ := List.mem_filter.1 h
  exact ⟨by simpa using hne, not_mem_of_mem_slashParts hm⟩

theorem segments_eq_slashParts {path : String} (h : "" ∉ slashParts path) :
    segments path = slashParts path := by
  rw [segments, List.filter_eq_self]
  intro name hm
  simpa using fun he : name = "" => h (he ▸ hm)

theorem segments_intercalate {names : List String} (h : ∀ name ∈ names, IsName name)
    (hne : names ≠ []) : segments (String.intercalate "/" names) = names := by
  rw [segments, slashParts_intercalate (fun name hm => (h name hm).slash_not_mem) hne,
    List.filter_eq_self]
  intro name hm
  simpa using (h name hm).ne_empty

theorem slashParts_intercalate_of_isName {way : List String} (hway : ∀ name ∈ way, IsName name)
    (hne : way ≠ []) : slashParts (String.intercalate "/" way) = way :=
  slashParts_intercalate (fun name hm => (hway name hm).slash_not_mem) hne

theorem slashParts_append_slash (front path : String) :
    slashParts (front ++ "/" ++ path) = slashParts front ++ slashParts path := by
  have hjoin : front ++ "/" ++ path = String.intercalate "/" (slashParts front ++ slashParts path) := by
    rw [String.intercalate_append_of_ne_nil (slashParts_ne_nil front) (slashParts_ne_nil path),
      intercalate_slashParts, intercalate_slashParts]
  rw [hjoin, slashParts_intercalate]
  · intro name hm
    rcases List.mem_append.1 hm with hm | hm
    · exact not_mem_of_mem_slashParts hm
    · exact not_mem_of_mem_slashParts hm
  · exact List.append_ne_nil_of_left_ne_nil (slashParts_ne_nil front) _

/-! ### Proper trees -/

mutual

/-- Every folder in a node has names for its entries, each one once. -/
def PropertyNode.Proper : PropertyNode → Prop
  | .document _ => True
  | .folder entries => (Entries.keys entries).Nodup ∧ ProperEntries entries

def ProperEntries : List (String × PropertyNode) → Prop
  | [] => True
  | (name, node) :: rest => IsName name ∧ node.Proper ∧ ProperEntries rest

end

theorem properEntries_iff (entries : List (String × PropertyNode)) :
    ProperEntries entries ↔ ∀ e ∈ entries, IsName e.1 ∧ e.2.Proper := by
  induction entries with
  | nil => simp [ProperEntries]
  | cons e entries ih =>
    obtain ⟨name, node⟩ := e
    simp [ProperEntries, ih, and_assoc]

namespace PropertyTree

/-- Every folder of a tree, the top folder too, has names for its entries, each one once. -/
def Proper (tree : PropertyTree) : Prop := (Entries.keys tree).Nodup ∧ ProperEntries tree

variable {tree : PropertyTree} {name : String} {node : PropertyNode} {way : List String}

theorem proper_nil : Proper [] := ⟨List.nodup_nil, trivial⟩

theorem Proper.of_get? (h : tree.Proper) (hn : Entries.get? tree name = some node) :
    IsName name ∧ node.Proper :=
  (properEntries_iff tree).1 h.2 _ (Entries.mem_of_get? hn)

theorem Proper.entriesOf (h : tree.Proper) (name : String) :
    Proper (entriesOf (Entries.get? tree name)) := by
  cases hn : Entries.get? tree name with
  | none => exact proper_nil
  | some node =>
    cases node with
    | document properties => exact proper_nil
    | folder entries => exact (h.of_get? hn).2

theorem Proper.insertEntry (h : tree.Proper) (hname : IsName name) (hnode : node.Proper) :
    Proper (Entries.insert tree name node) := by
  refine ⟨Entries.nodup_keys_insert h.1 name node, (properEntries_iff _).2 fun e he => ?_⟩
  rcases Entries.mem_insert he with rfl | he
  · exact ⟨hname, hnode⟩
  · exact (properEntries_iff tree).1 h.2 e he

theorem Proper.insertAt (h : tree.Proper) (hw : ∀ name ∈ way, IsName name) (properties : Properties) :
    Proper (tree.insertAt way properties) := by
  fun_induction PropertyTree.insertAt tree way properties with
  | case1 => exact h
  | case2 tree name => exact h.insertEntry (hw name List.mem_cons_self) trivial
  | case3 tree name way _ ih =>
    exact h.insertEntry (hw name List.mem_cons_self)
      (ih (h.entriesOf name) fun n hn => hw n (List.mem_cons_of_mem _ hn))

theorem Proper.insert (h : tree.Proper) (path : String) (properties : Properties) :
    Proper (tree.insert path properties) :=
  h.insertAt (fun _ => isName_of_mem_segments) properties

end PropertyTree

/-! ### The tree of a source -/

namespace Source

variable {source : Source} {tree : PropertyTree} {paths : List String} {e : SourceError}

/-- The properties that a document is indexed with: none if it cannot be read. -/
def indexed (source : Source) (path : String) : Properties :=
  (source.properties path).toOption.getD []

theorem tree_of_documents (h : source.documents = .ok paths) :
    source.tree = .ok (paths.foldl (fun tree path => tree.insert path (source.indexed path)) []) := by
  rw [Source.tree, h]
  rfl

/-- Only the list of documents can fail a tree. -/
theorem tree_of_unlisted (h : source.documents = .error e) : source.tree = .error e := by
  rw [Source.tree, h]
  rfl

/-- The tree of a source is proper. -/
theorem proper_tree (h : source.tree = .ok tree) : tree.Proper := by
  cases hd : source.documents with
  | error e =>
    rw [tree_of_unlisted hd] at h
    cases h
  | ok paths =>
    rw [tree_of_documents hd] at h
    cases h
    -- the invariant of the fold over the paths
    have hfold : ∀ tree : PropertyTree, tree.Proper → PropertyTree.Proper (paths.foldl
        (fun tree path => tree.insert path (source.indexed path)) tree) := by
      clear hd
      induction paths with
      | nil => exact fun _ h => h
      | cons path paths ih => exact fun tree h => ih _ (h.insert path _)
    exact hfold [] PropertyTree.proper_nil

end Source

/-! ### What stands at the end of a way -/

namespace PropertyTree

variable {tree : PropertyTree} {name : String} {node : PropertyNode} {way rest : List String}
  {properties : Properties}

theorem nodeAt?_nil (way : List String) : nodeAt? [] way = none := by
  induction way with
  | nil => rfl
  | cons name way ih =>
    cases way with
    | nil => rfl
    | cons next way => exact ih

theorem nodeAt?_cons_cons (tree : PropertyTree) (name next : String) (way : List String) :
    nodeAt? tree (name :: next :: way) =
      nodeAt? (entriesOf (Entries.get? tree name)) (next :: way) := rfl

/-- A way with more than one name leads into a folder. -/
theorem exists_of_nodeAt?_cons {next : String} (h : nodeAt? tree (name :: next :: way) = some node) :
    ∃ entries, Entries.get? tree name = some (.folder entries) ∧
      nodeAt? entries (next :: way) = some node := by
  rw [nodeAt?_cons_cons] at h
  have hnone : nodeAt? [] (next :: way) ≠ some node := by
    rw [nodeAt?_nil]
    nofun
  cases hn : Entries.get? tree name with
  | none =>
    rw [hn] at h
    exact absurd h hnone
  | some sub =>
    rw [hn] at h
    cases sub with
    | document properties => exact absurd h hnone
    | folder entries => exact ⟨entries, rfl, h⟩

/-- The way to a node consists of names. -/
theorem Proper.isName_of_nodeAt? (h : tree.Proper) (hn : nodeAt? tree way = some node) :
    ∀ name ∈ way, IsName name := by
  induction way generalizing tree with
  | nil => nofun
  | cons name way ih =>
    cases way with
    | nil =>
      rw [nodeAt?] at hn
      simpa using (h.of_get? hn).1
    | cons next way =>
      obtain ⟨entries, he, hs⟩ := exists_of_nodeAt?_cons hn
      obtain ⟨hname, hp⟩ := h.of_get? he
      exact List.forall_mem_cons.2 ⟨hname, ih hp hs⟩

theorem ne_nil_of_nodeAt? (h : nodeAt? tree way = some node) : way ≠ [] := by
  rintro rfl
  cases h

theorem document?_eq_some_iff {path : String} :
    tree.document? path = some properties ↔
      tree.nodeAt? (segments path) = some (.document properties) := by
  rw [document?, node?]
  cases tree.nodeAt? (segments path) with
  | none => simp
  | some node => cases node <;> simp

/-- Behind a document, what is left of a way is a path inside its properties. -/
theorem valueAt?_append (h : nodeAt? tree way = some (.document properties)) (hr : rest ≠ []) :
    valueAt? tree (way ++ rest) = properties.lookup? (String.intercalate "/" rest) := by
  induction way generalizing tree with
  | nil => cases h
  | cons name way ih =>
    cases way with
    | nil =>
      rw [nodeAt?] at h
      rw [List.singleton_append, valueAt?, h]
      simp [hr]
    | cons next way =>
      obtain ⟨entries, he, hs⟩ := exists_of_nodeAt?_cons h
      rw [List.cons_append, valueAt?, he]
      exact ih hs

/-- A path whose start is the way to a document leads on into its properties. -/
theorem get?_append_slash {front : String}
    (h : tree.nodeAt? (slashParts front) = some (.document properties)) (path : String) :
    tree.get? (front ++ "/" ++ path) = properties.lookup? path := by
  rw [get?, slashParts_append_slash, valueAt?_append h (slashParts_ne_nil path), intercalate_slashParts]

/-- A path without a slash leads to nothing but a document of the top folder, all of it. -/
theorem Proper.get?_of_not_mem (h : tree.Proper) {path : String} (hp : '/' ∉ path.toList) :
    tree.get? path = (tree.document? path).map .object := by
  by_cases he : path = ""
  · have hn : Entries.get? tree "" = none := by
      rw [Option.eq_none_iff_forall_ne_some]
      exact fun node hn => (h.of_get? hn).1.ne_empty rfl
    subst he
    have hs : segments "" = [] := by rw [segments, slashParts_of_not_mem hp]; rfl
    rw [get?, slashParts_of_not_mem hp, valueAt?, hn, document?, node?, hs]
    rfl
  · have hs : segments path = [path] := by
      rw [segments, slashParts_of_not_mem hp]
      simp [he]
    rw [get?, slashParts_of_not_mem hp, valueAt?, document?, node?, hs, nodeAt?]
    cases Entries.get? tree path with
    | none => rfl
    | some node => cases node <;> rfl

/-! ### Documents -/

/-- A document of a tree, with its properties: its path is the way to it, with slashes between the
names. -/
def HasDocument (tree : PropertyTree) (document : String) (properties : Properties) : Prop :=
  ∃ way, tree.nodeAt? way = some (.document properties) ∧ document = String.intercalate "/" way

variable {document : String}

theorem HasDocument.document? (h : tree.HasDocument document properties) (hp : tree.Proper) :
    tree.document? document = some properties := by
  obtain ⟨way, hn, rfl⟩ := h
  rw [document?_eq_some_iff, segments_intercalate (hp.isName_of_nodeAt? hn) (ne_nil_of_nodeAt? hn), hn]

/-- Behind the path of a document a path leads on into its properties. -/
theorem HasDocument.get?_append (h : tree.HasDocument document properties) (hp : tree.Proper)
    (path : String) : tree.get? (document ++ "/" ++ path) = properties.lookup? path := by
  obtain ⟨way, hn, rfl⟩ := h
  have hparts := slashParts_intercalate_of_isName (hp.isName_of_nodeAt? hn) (ne_nil_of_nodeAt? hn)
  exact get?_append_slash (by rw [hparts, hn]) path

end PropertyTree

/-! ### The list of all paths -/

/-- The paths of a node itself: its own, and those of its properties if it is a document. -/
def PropertyNode.ownPaths (path : String) : PropertyNode → List String
  | .document properties => path :: properties.pathsIn path
  | .folder _ => [path]

theorem PropertyNode.ownPaths_subset (path : String) (node : PropertyNode) :
    node.ownPaths path ⊆ node.pathsAt path := by
  cases node with
  | document properties => exact List.Subset.refl _
  | folder entries => simp [ownPaths, pathsAt]

theorem entryPaths_eq (parent : String) (entries : List (String × PropertyNode)) :
    entryPaths parent entries = entries.flatMap fun e => e.2.pathsAt (joinPath parent e.1) := by
  induction entries with
  | nil => rfl
  | cons e entries ih =>
    obtain ⟨name, node⟩ := e
    rw [entryPaths, ih, List.flatMap_cons]

theorem mem_entryPaths_iff {parent path : String} {entries : List (String × PropertyNode)} :
    path ∈ entryPaths parent entries ↔ ∃ e ∈ entries, path ∈ e.2.pathsAt (joinPath parent e.1) := by
  rw [entryPaths_eq, List.mem_flatMap]

theorem joinPath_joinPath {parent name : String} (h : name ≠ "") (path : String) :
    joinPath (joinPath parent name) path = joinPath parent (name ++ "/" ++ path) := by
  have hne : joinPath parent name ≠ "" := by
    rw [joinPath]
    split
    · exact h
    · simp [h]
  rw [joinPath, if_neg (by simpa using hne), joinPath, joinPath]
  split
  · rfl
  · simp [String.append_assoc]

theorem intercalate_cons_cons (name next : String) (way : List String) :
    String.intercalate "/" (name :: next :: way) =
      name ++ "/" ++ String.intercalate "/" (next :: way) := String.intercalate_cons_cons

namespace PropertyTree

variable {tree : PropertyTree}

/-- The paths of what stands at the end of a way are listed. -/
theorem mem_entryPaths {node : PropertyNode} {way : List String} {path parent : String}
    (hp : tree.Proper) (hn : tree.nodeAt? way = some node)
    (h : path ∈ node.ownPaths (joinPath parent (String.intercalate "/" way))) :
    path ∈ entryPaths parent tree := by
  induction way generalizing tree parent with
  | nil => cases hn
  | cons name way ih =>
    cases way with
    | nil =>
      rw [nodeAt?] at hn
      rw [String.intercalate_singleton] at h
      exact mem_entryPaths_iff.2 ⟨_, Entries.mem_of_get? hn, node.ownPaths_subset _ h⟩
    | cons next way =>
      obtain ⟨entries, he, hs⟩ := exists_of_nodeAt?_cons hn
      obtain ⟨hname, hsub⟩ := hp.of_get? he
      rw [intercalate_cons_cons, ← joinPath_joinPath hname.ne_empty] at h
      refine mem_entryPaths_iff.2 ⟨_, Entries.mem_of_get? he, ?_⟩
      exact List.mem_cons_of_mem _ (ih hsub hs h)

/-- A path that is listed is one of what stands at the end of some way. -/
theorem exists_of_mem_entryPaths {tree : PropertyTree} {path parent : String} (hp : tree.Proper)
    (h : path ∈ entryPaths parent tree) :
    ∃ way node, tree.nodeAt? way = some node ∧
      path ∈ node.ownPaths (joinPath parent (String.intercalate "/" way)) := by
  obtain ⟨⟨name, node⟩, hm, hpath⟩ := mem_entryPaths_iff.1 h
  have hn : Entries.get? tree name = some node := (Entries.get?_eq_some_iff hp.1).2 hm
  have hname := (hp.of_get? hn).1
  have hself : tree.nodeAt? [name] = some node := hn
  have hjoin : String.intercalate "/" [name] = name := String.intercalate_singleton
  cases node with
  | document properties => exact ⟨[name], _, hself, hjoin ▸ hpath⟩
  | folder entries =>
    rcases List.mem_cons.1 hpath with rfl | hpath
    · exact ⟨[name], _, hself, hjoin ▸ List.mem_cons_self⟩
    · have hlt : sizeOf entries < sizeOf tree := by
        have := List.sizeOf_lt_of_mem hm
        simp only [Prod.mk.sizeOf_spec, PropertyNode.folder.sizeOf_spec] at this
        omega
      obtain ⟨way, sub, hs, hpath⟩ := exists_of_mem_entryPaths (hp.of_get? hn).2 hpath
      obtain ⟨next, way, rfl⟩ := List.exists_cons_of_ne_nil (ne_nil_of_nodeAt? hs)
      rw [joinPath_joinPath hname.ne_empty, ← intercalate_cons_cons] at hpath
      refine ⟨name :: next :: way, sub, ?_, hpath⟩
      rw [nodeAt?_cons_cons, hn]
      exact hs
termination_by sizeOf tree

/-- The paths that are listed: of every folder and document its own, and of every document those of its
properties. -/
theorem mem_paths_iff (hp : tree.Proper) {path : String} :
    path ∈ tree.paths ↔
      (∃ way node, tree.nodeAt? way = some node ∧ path = String.intercalate "/" way) ∨
      ∃ document properties, tree.HasDocument document properties ∧
        ∃ p ∈ properties.flatten.map (·.1), path = document ++ "/" ++ p := by
  have hroot : ∀ path : String, joinPath "" path = path := fun path => rfl
  constructor
  · intro h
    obtain ⟨way, node, hn, hpath⟩ := exists_of_mem_entryPaths hp h
    rw [hroot] at hpath
    cases node with
    | folder entries => exact .inl ⟨way, _, hn, List.mem_singleton.1 hpath⟩
    | document properties =>
      rcases List.mem_cons.1 hpath with rfl | hpath
      · exact .inl ⟨way, _, hn, rfl⟩
      · obtain ⟨⟨p, v⟩, hm, rfl⟩ := List.mem_map.1 hpath
        exact .inr ⟨_, properties, ⟨way, hn, rfl⟩, p, List.mem_map.2 ⟨_, hm, rfl⟩, rfl⟩
  · rintro (⟨way, node, hn, rfl⟩ | ⟨document, properties, ⟨way, hn, rfl⟩, p, hm, rfl⟩)
    · refine mem_entryPaths hp hn ?_
      rw [hroot]
      cases node <;> exact List.mem_cons_self
    · refine mem_entryPaths hp hn ?_
      obtain ⟨e, he, rfl⟩ := List.mem_map.1 hm
      exact List.mem_cons_of_mem _ (List.mem_map.2 ⟨e, he, rfl⟩)

end PropertyTree

end LiveNotes
