import Mathlib
import LiveNotes.Proofs.Store.Tree

/-!
The documents of a tree: what setting one does to every other path, and what stands where when all the
documents of a source are set one after another.

* `nodeAt?_insertAt`, `node?_insert`: a document that is set changes what stands on the way to it and
  behind it, and nothing else;
* `document?_foldl`: which of the documents set one after another is found at a path;
* `Mirrors`: documents, folders on the way to them, and nothing more;
* `Apart`: paths none of which leads through another;
* `tree_of_apart`: the tree of a source with such paths mirrors its documents, in whatever order they come.
-/

namespace LiveNotes

namespace PropertyTree

variable {tree : PropertyTree} {way other : List String} {properties : Properties}

/-! ### Setting one document -/

/-- The node at the end of a way that starts at another one. Nothing leads on from a document. -/
def nodeFrom? (node : Option PropertyNode) : List String → Option PropertyNode
  | [] => node
  | name :: way => nodeFrom? (Entries.get? (entriesOf node) name) way

theorem nodeAt?_eq_nodeFrom? (tree : PropertyTree) (h : way ≠ []) :
    tree.nodeAt? way = nodeFrom? (some (.folder tree)) way := by
  fun_induction nodeAt? tree way with
  | case1 => exact absurd rfl h
  | case2 => rfl
  | case3 tree name way hne ih =>
    have hw : way ≠ [] := by simpa using hne
    rw [ih hw, nodeFrom?]
    obtain ⟨next, way, rfl⟩ := List.exists_cons_of_ne_nil hw
    rfl

theorem nodeFrom?_none (way : List String) : nodeFrom? none way = none := by
  induction way with
  | nil => rfl
  | cons name way ih => exact ih

theorem nodeFrom?_document (properties : Properties) (h : way ≠ []) :
    nodeFrom? (some (.document properties)) way = none := by
  obtain ⟨name, way, rfl⟩ := List.exists_cons_of_ne_nil h
  exact nodeFrom?_none way

/-- What stands in the place of a node when a document is set at the end of a way that starts there. -/
def setFrom (node : Option PropertyNode) (properties : Properties) : List String → PropertyNode
  | [] => .document properties
  | name :: way =>
    .folder (Entries.insert (entriesOf node) name
      (setFrom (Entries.get? (entriesOf node) name) properties way))

theorem folder_insertAt (tree : PropertyTree) (properties : Properties) (h : way ≠ []) :
    .folder (tree.insertAt way properties) = setFrom (some (.folder tree)) properties way := by
  fun_induction insertAt tree way properties with
  | case1 => exact absurd rfl h
  | case2 => rfl
  | case3 tree name way hne ih =>
    have hw : way ≠ [] := by simpa using hne
    rw [ih hw, setFrom]
    obtain ⟨next, way, rfl⟩ := List.exists_cons_of_ne_nil hw
    rfl

/-- The way to the new document leads through new or old folders, nothing stands behind the document,
and whatever lies off the way is as it was. -/
theorem nodeFrom?_setFrom (node : Option PropertyNode) (properties : Properties)
    (way other : List String) :
    nodeFrom? (some (setFrom node properties way)) other =
      if other <+: way then
        some (setFrom (nodeFrom? node other) properties (way.drop other.length))
      else if way <+: other then none
      else nodeFrom? node other := by
  induction other generalizing node way with
  | nil => simp [nodeFrom?]
  | cons name other ih =>
    cases way with
    | nil => simp [setFrom, nodeFrom?_document]
    | cons first way =>
      rw [setFrom, nodeFrom?, nodeFrom?, entriesOf, Entries.get?_insert]
      by_cases hname : first = name
      · subst hname
        rw [if_pos rfl, ih]
        simp
      · have hname' : name ≠ first := fun he => hname he.symm
        simp [hname, hname']

theorem nodeAt?_insertAt (tree : PropertyTree) (properties : Properties) (hway : way ≠ [])
    (hother : other ≠ []) :
    (tree.insertAt way properties).nodeAt? other =
      if other <+: way then
        some (setFrom (tree.nodeAt? other) properties (way.drop other.length))
      else if way <+: other then none
      else tree.nodeAt? other := by
  rw [nodeAt?_eq_nodeFrom? _ hother, folder_insertAt tree properties hway, nodeFrom?_setFrom,
    nodeAt?_eq_nodeFrom? _ hother]

/-- Neither way leads through the end of the other. -/
def Apart (a b : List String) : Prop := ¬ a <+: b ∧ ¬ b <+: a

theorem Apart.symm {a b : List String} (h : Apart a b) : Apart b a := ⟨h.2, h.1⟩

theorem Apart.ne {a b : List String} (h : Apart a b) : a ≠ b :=
  fun he => h.1 (he ▸ List.prefix_rfl)

theorem not_append_prefix_self (way : List String) {rest : List String} (h : rest ≠ []) :
    ¬ way ++ rest <+: way := by
  intro hp
  have hlength := hp.length_le
  rw [List.length_append] at hlength
  exact h (List.eq_nil_of_length_eq_zero (by omega))

/-- Two ways are the same, or one leads on from the end of the other, or they are apart. -/
theorem way_cases (way other : List String) :
    other = way ∨ (∃ rest, rest ≠ [] ∧ way = other ++ rest) ∨ (∃ rest, rest ≠ [] ∧ other = way ++ rest) ∨
      Apart way other := by
  by_cases h : other <+: way
  · obtain ⟨rest, rfl⟩ := h
    by_cases hrest : rest = []
    · exact .inl (by simp [hrest])
    · exact .inr (.inl ⟨rest, hrest, rfl⟩)
  · by_cases h' : way <+: other
    · obtain ⟨rest, rfl⟩ := h'
      refine .inr (.inr (.inl ⟨rest, ?_, rfl⟩))
      rintro rfl
      exact h (by simp)
    · exact .inr (.inr (.inr ⟨h', h⟩))

theorem nodeAt?_insertAt_self (tree : PropertyTree) (properties : Properties) (hway : way ≠ []) :
    (tree.insertAt way properties).nodeAt? way = some (.document properties) := by
  rw [nodeAt?_insertAt tree properties hway hway, if_pos List.prefix_rfl, List.drop_length, setFrom]

theorem exists_folder_insertAt (tree : PropertyTree) (properties : Properties) {rest : List String}
    (hother : other ≠ []) (hrest : rest ≠ []) :
    ∃ entries, (tree.insertAt (other ++ rest) properties).nodeAt? other = some (.folder entries) := by
  have hne : other ++ rest ≠ [] := List.append_ne_nil_of_left_ne_nil hother rest
  obtain ⟨name, rest, rfl⟩ := List.exists_cons_of_ne_nil hrest
  rw [nodeAt?_insertAt tree properties hne hother, if_pos (List.prefix_append _ _), List.drop_left]
  exact ⟨_, rfl⟩

theorem nodeAt?_insertAt_append (tree : PropertyTree) (properties : Properties) {rest : List String}
    (hway : way ≠ []) (hrest : rest ≠ []) :
    (tree.insertAt way properties).nodeAt? (way ++ rest) = none := by
  have hne : way ++ rest ≠ [] := List.append_ne_nil_of_left_ne_nil hway rest
  rw [nodeAt?_insertAt tree properties hway hne, if_neg (not_append_prefix_self way hrest),
    if_pos (List.prefix_append _ _)]

theorem nodeAt?_insertAt_of_apart (tree : PropertyTree) (properties : Properties)
    (h : Apart way other) : (tree.insertAt way properties).nodeAt? other = tree.nodeAt? other := by
  have hway : way ≠ [] := by
    rintro rfl
    exact h.1 List.nil_prefix
  have hother : other ≠ [] := by
    rintro rfl
    exact h.2 List.nil_prefix
  rw [nodeAt?_insertAt tree properties hway hother, if_neg h.2, if_neg h.1]

/-- Setting a document touches only its own branch: it stands at the end of its way, whatever stood there
or on the way before; what lies off the way is as it was; the way leads through folders, from the top folder
on, which is where a path without names ends; and nothing lies behind the document. -/
theorem node?_insert (tree : PropertyTree) (properties : Properties) {path : String}
    (hpath : segments path ≠ []) :
    (tree.insert path properties).document? path = some properties ∧
    (∀ other, ¬ segments other <+: segments path → ¬ segments path <+: segments other →
      (tree.insert path properties).node? other = tree.node? other) ∧
    (∀ other, segments other <+: segments path → segments other ≠ segments path →
      segments other = [] ∨
        ∃ entries, (tree.insert path properties).node? other = some (.folder entries)) ∧
    (∀ other, segments path <+: segments other → segments other ≠ segments path →
      (tree.insert path properties).node? other = none) := by
  refine ⟨?_, ?_, ?_, ?_⟩
  · rw [document?, node?, insert, nodeAt?_insertAt_self tree properties hpath]
  · intro other hother hthrough
    exact nodeAt?_insertAt_of_apart tree properties ⟨hthrough, hother⟩
  · intro other hprefix hne
    by_cases hother : segments other = []
    · exact .inl hother
    · obtain ⟨rest, hrest⟩ := hprefix
      have hrest' : rest ≠ [] := by
        rintro rfl
        exact hne (by simpa using hrest)
      rw [insert, ← hrest, node?]
      exact .inr (exists_folder_insertAt tree properties hother hrest')
  · intro other hprefix hne
    obtain ⟨rest, hrest⟩ := hprefix
    have hrest' : rest ≠ [] := by
      rintro rfl
      exact hne (by simpa using hrest.symm)
    rw [node?, insert, ← hrest]
    exact nodeAt?_insertAt_append tree properties hpath hrest'

/-- A document where another one needs a folder, and one beside it. -/
def clashTree : PropertyTree :=
  [("a", .document [("n", .integer 1)]), ("b.md", .document [("n", .integer 2)])]

theorem node?_insert_clashTree :
    segments "a//x.md" ≠ [] ∧
    (clashTree.insert "a//x.md" []).document? "a//x.md" = some [] ∧
    (clashTree.insert "a//x.md" []).node? "b.md" = clashTree.node? "b.md" ∧
    (∃ entries, (clashTree.insert "a//x.md" []).node? "a" = some (.folder entries)) ∧
    (clashTree.insert "a//x.md" []).node? "a/x.md/n" = none := by
  have hx : segments "a//x.md" = ["a", "x.md"] := by cbv
  have hb : segments "b.md" = ["b.md"] := by cbv
  have ha : segments "a" = ["a"] := by cbv
  have hn : segments "a/x.md/n" = ["a", "x.md", "n"] := by cbv
  have hne : segments "a//x.md" ≠ [] := by simp [hx]
  obtain ⟨hself, hoff, hfolder, hbehind⟩ := node?_insert clashTree [] hne
  refine ⟨hne, hself, ?_, ?_, ?_⟩
  · exact hoff "b.md" (by simp [hb, hx]) (by simp [hb, hx])
  · exact (hfolder "a" (by simp [ha, hx]) (by simp [ha, hx])).resolve_left (by simp [ha])
  · exact hbehind "a/x.md/n" (by simp [hx, hn]) (by simp [hx, hn])

/-! ### The document at a path -/

/-- One of two ways leads through the end of the other. -/
def Meets (a b : List String) : Prop := a ≠ [] ∧ b ≠ [] ∧ (a <+: b ∨ b <+: a)

instance : DecidableRel Meets := fun a b => by unfold Meets; infer_instance

theorem document?_of_segments_eq_nil (tree : PropertyTree) {path : String} (h : segments path = []) :
    tree.document? path = none := by
  rw [document?, node?, h, nodeAt?]

/-- A document that is set takes away what stands at every path whose way meets its own, and changes
nothing at any other. -/
theorem document?_insert (tree : PropertyTree) (path : String) (properties : Properties)
    (other : String) :
    (tree.insert path properties).document? other =
      if Meets (segments path) (segments other) then
        if segments path = segments other then some properties else none
      else tree.document? other := by
  by_cases hpath : segments path = []
  · have hmeets : ¬ Meets (segments path) (segments other) := fun h => h.1 hpath
    rw [if_neg hmeets, insert, hpath, insertAt]
  by_cases hother : segments other = []
  · have hmeets : ¬ Meets (segments path) (segments other) := fun h => h.2.1 hother
    rw [if_neg hmeets, document?_of_segments_eq_nil _ hother, document?_of_segments_eq_nil _ hother]
  rw [document?, node?, insert]
  rcases way_cases (segments path) (segments other) with he | ⟨rest, hrest, he⟩ | ⟨rest, hrest, he⟩ | h
  · have hmeets : Meets (segments path) (segments other) := ⟨hpath, hother, .inr (he ▸ List.prefix_rfl)⟩
    rw [if_pos hmeets, if_pos he.symm, he, nodeAt?_insertAt_self tree properties hpath]
  · have hmeets : Meets (segments path) (segments other) :=
      ⟨hpath, hother, .inr (he ▸ List.prefix_append _ _)⟩
    have hne : segments path ≠ segments other := by simp [he, hrest]
    obtain ⟨entries, hn⟩ := exists_folder_insertAt tree properties hother hrest
    rw [if_pos hmeets, if_neg hne, he, hn]
  · have hmeets : Meets (segments path) (segments other) :=
      ⟨hpath, hother, .inl (he ▸ List.prefix_append _ _)⟩
    have hne : segments path ≠ segments other := by simp [he, hrest]
    rw [if_pos hmeets, if_neg hne, he, nodeAt?_insertAt_append tree properties hpath hrest]
  · have hmeets : ¬ Meets (segments path) (segments other) := fun hm => hm.2.2.elim h.1 h.2
    rw [if_neg hmeets, nodeAt?_insertAt_of_apart tree properties h, document?, node?]

/-- Of the paths of documents that are set one after another, the one that decides what stands at a path:
the last one whose way meets that of the path. -/
def decisive? (paths : List String) (path : String) : Option String :=
  (paths.filter fun listed => Meets (segments listed) (segments path)).getLast?

/-- Of documents that are set one after another, one is found where nothing comes later on its way or
behind it. -/
theorem document?_foldl (paths : List String) (f : String → Properties) (path : String) :
    document? (paths.foldl (fun tree path => tree.insert path (f path)) []) path =
      (decisive? paths path).bind fun listed =>
        if segments listed = segments path then some (f listed) else none := by
  -- the last document decides, unless its way does not meet that of the path
  induction paths using List.reverseRecOn with
  | nil =>
    rw [List.foldl_nil, document?, node?, nodeAt?_nil]
    rfl
  | append_singleton paths last ih =>
    rw [List.foldl_append, List.foldl_cons, List.foldl_nil, document?_insert, decisive?,
      List.filter_append]
    by_cases h : Meets (segments last) (segments path)
    · rw [if_pos h, List.filter_cons_of_pos (by simpa using h), List.filter_nil, List.getLast?_concat]
      rfl
    · rw [if_neg h, List.filter_cons_of_neg (by simpa using h), List.filter_nil, List.append_nil, ih]
      rfl

/-! ### Trees that mirror documents -/

/-- A tree holds documents, each at the end of its way, the folders on the way to them, and nothing
more. -/
structure Mirrors (tree : PropertyTree) (documents : List (List String × Properties)) : Prop where
  document_iff : ∀ way properties,
    tree.nodeAt? way = some (.document properties) ↔ (way, properties) ∈ documents
  isSome_iff : ∀ way, (tree.nodeAt? way).isSome ↔ way ≠ [] ∧ ∃ d ∈ documents, way <+: d.1

variable {documents documents' : List (List String × Properties)}

theorem mirrors_nil : Mirrors [] [] where
  document_iff way properties := by simp [nodeAt?_nil]
  isSome_iff way := by simp [nodeAt?_nil]

theorem Mirrors.ne_nil (h : tree.Mirrors documents) {d : List String × Properties}
    (hd : d ∈ documents) : d.1 ≠ [] :=
  ne_nil_of_nodeAt? ((h.document_iff d.1 d.2).2 hd)

/-- A document that is apart from all others joins them. -/
theorem Mirrors.insertAt (h : tree.Mirrors documents) (hway : way ≠ [])
    (hapart : ∀ d ∈ documents, Apart d.1 way) (properties : Properties) :
    Mirrors (tree.insertAt way properties) (documents ++ [(way, properties)]) where
  document_iff other p := by
    rw [List.mem_append, List.mem_singleton, Prod.mk.injEq]
    rcases eq_or_ne other [] with rfl | hother
    · have hdocuments : ([], p) ∉ documents := fun hm => h.ne_nil hm rfl
      simp [nodeAt?, hdocuments, hway.symm]
    rcases way_cases way other with rfl | ⟨rest, hrest, rfl⟩ | ⟨rest, hrest, rfl⟩ | hw
    · have hdocuments : (other, p) ∉ documents := fun hm => (hapart _ hm).ne rfl
      simp [nodeAt?_insertAt_self tree properties hway, hdocuments, eq_comm]
    · have hdocuments : (other, p) ∉ documents :=
        fun hm => (hapart _ hm).1 (List.prefix_append other rest)
      obtain ⟨entries, he⟩ := exists_folder_insertAt tree properties hother hrest
      simp [he, hdocuments, hrest]
    · have hdocuments : (way ++ rest, p) ∉ documents :=
        fun hm => (hapart _ hm).2 (List.prefix_append way rest)
      simp [nodeAt?_insertAt_append tree properties hway hrest, hdocuments, hrest]
    · rw [nodeAt?_insertAt_of_apart tree properties hw, h.document_iff]
      simp [hw.ne.symm]
  isSome_iff other := by
    rcases eq_or_ne other [] with rfl | hother
    · simp [nodeAt?]
    have hmem : (∃ d ∈ documents ++ [(way, properties)], other <+: d.1) ↔
        (∃ d ∈ documents, other <+: d.1) ∨ other <+: way := by
      simp [or_and_right, exists_or]
    rw [hmem]
    rcases way_cases way other with rfl | ⟨rest, hrest, rfl⟩ | ⟨rest, hrest, rfl⟩ | hw
    · simp [nodeAt?_insertAt_self tree properties hway, hother]
    · obtain ⟨entries, he⟩ := exists_folder_insertAt tree properties hother hrest
      simp [he, hother]
    · have hdocuments : ¬ ∃ d ∈ documents, way ++ rest <+: d.1 := by
        rintro ⟨d, hd, hp⟩
        exact (hapart d hd).2 ((List.prefix_append way rest).trans hp)
      simp [nodeAt?_insertAt_append tree properties hway hrest, hdocuments,
        not_append_prefix_self way hrest]
    · rw [nodeAt?_insertAt_of_apart tree properties hw, h.isSome_iff]
      simp [hw.2]

/-- Documents that are apart from one another, set one after another. -/
theorem mirrors_foldl {paths : List String} (hne : ∀ path ∈ paths, segments path ≠ [])
    (hapart : paths.Pairwise fun a b => Apart (segments a) (segments b)) (f : String → Properties) :
    Mirrors (paths.foldl (fun tree path => tree.insert path (f path)) [])
      (paths.map fun path => (segments path, f path)) := by
  -- the last document comes to a tree that mirrors those before it
  induction paths using List.reverseRecOn with
  | nil => exact mirrors_nil
  | append_singleton paths path ih =>
    rw [List.forall_mem_append, List.forall_mem_singleton] at hne
    rw [List.pairwise_append] at hapart
    rw [List.foldl_append, List.map_append]
    refine (ih hne.1 hapart.1).insertAt hne.2 ?_ (f path)
    intro d hd
    obtain ⟨other, hm, rfl⟩ := List.mem_map.1 hd
    exact hapart.2.2 other hm path (List.mem_singleton_self path)

theorem Mirrors.of_perm (h : tree.Mirrors documents) (hp : documents.Perm documents') :
    tree.Mirrors documents' where
  document_iff way properties := by rw [h.document_iff, hp.mem_iff]
  isSome_iff way := by simp [h.isSome_iff, hp.mem_iff]

end PropertyTree

/-! ### Trees that differ in the order of entries -/

/-- The same document, or folders with entries of the same names in whatever order. -/
def PropertyNode.Alike : PropertyNode → PropertyNode → Prop
  | .document a, .document b => a = b
  | .folder a, .folder b => (Entries.keys a).Perm (Entries.keys b)
  | _, _ => False

namespace PropertyTree

variable {tree tree' : PropertyTree} {way : List String}
  {documents : List (List String × Properties)}

/-- Two trees have the same folders and documents at every path, and differ at most in the order of the
entries. -/
structure Reordered (a b : PropertyTree) : Prop where
  keys : (Entries.keys a).Perm (Entries.keys b)
  node? : ∀ path, Option.Rel PropertyNode.Alike (a.node? path) (b.node? path)

theorem nodeFrom?_append (node : Option PropertyNode) (way rest : List String) :
    nodeFrom? node (way ++ rest) = nodeFrom? (nodeFrom? node way) rest := by
  induction way generalizing node with
  | nil => rfl
  | cons name way ih => exact ih _

theorem proper_of_nodeFrom? {node sub : PropertyNode} (h : node.Proper)
    (hn : nodeFrom? (some node) way = some sub) : sub.Proper := by
  induction way generalizing node with
  | nil =>
    cases hn
    exact h
  | cons name way ih =>
    rw [nodeFrom?] at hn
    cases hnext : Entries.get? (entriesOf (some node)) name with
    | none =>
      rw [hnext, nodeFrom?_none] at hn
      cases hn
    | some next =>
      rw [hnext] at hn
      cases node with
      | document properties => cases hnext
      | folder entries => exact ih (Proper.of_get? h hnext).2 hn

/-- The names in a folder are those that a way leads on to from it. -/
theorem mem_keys_iff {entries : List (String × PropertyNode)} {name : String}
    (hn : nodeFrom? (some (.folder tree)) way = some (.folder entries)) :
    name ∈ Entries.keys entries ↔ (tree.nodeAt? (way ++ [name])).isSome := by
  rw [nodeAt?_eq_nodeFrom? _ (by simp), nodeFrom?_append, hn, ← Entries.isSome_get?_iff]
  rfl

/-- Folders on the same way have the same names in trees that mirror the same documents. -/
theorem Mirrors.perm_keys {a b : List (String × PropertyNode)} (h : tree.Mirrors documents)
    (h' : tree'.Mirrors documents) (hp : tree.Proper) (hp' : tree'.Proper)
    (ha : nodeFrom? (some (.folder tree)) way = some (.folder a))
    (hb : nodeFrom? (some (.folder tree')) way = some (.folder b)) :
    (Entries.keys a).Perm (Entries.keys b) := by
  have hroot : PropertyNode.Proper (.folder tree) := hp
  have hroot' : PropertyNode.Proper (.folder tree') := hp'
  refine (List.perm_ext_iff_of_nodup (proper_of_nodeFrom? hroot ha).1
    (proper_of_nodeFrom? hroot' hb).1).2 ?_
  intro name
  rw [mem_keys_iff ha, mem_keys_iff hb, h.isSome_iff, h'.isSome_iff]

theorem Mirrors.alike (h : tree.Mirrors documents) (h' : tree'.Mirrors documents)
    (hp : tree.Proper) (hp' : tree'.Proper) (way : List String) :
    Option.Rel PropertyNode.Alike (tree.nodeAt? way) (tree'.nodeAt? way) := by
  cases ha : tree.nodeAt? way with
  | none =>
    have hb : tree'.nodeAt? way = none := by
      rw [← Option.not_isSome_iff_eq_none, h'.isSome_iff, ← h.isSome_iff, ha]
      simp
    rw [hb]
    exact .none
  | some node =>
    have hway : way ≠ [] := ne_nil_of_nodeAt? ha
    cases node with
    | document properties =>
      rw [(h'.document_iff way properties).2 ((h.document_iff way properties).1 ha)]
      exact .some rfl
    | folder entries =>
      obtain ⟨node, hb⟩ : ∃ node, tree'.nodeAt? way = some node := by
        rw [← Option.isSome_iff_exists, h'.isSome_iff, ← h.isSome_iff, ha]
        rfl
      rw [hb]
      cases node with
      | document properties =>
        have hdocument := (h.document_iff way properties).2 ((h'.document_iff way properties).1 hb)
        rw [ha] at hdocument
        cases hdocument
      | folder entries' =>
        rw [nodeAt?_eq_nodeFrom? _ hway] at ha hb
        exact .some (h.perm_keys h' hp hp' ha hb)

theorem nodeFrom?_nil (node : Option PropertyNode) : nodeFrom? node [] = node := rfl

theorem Mirrors.reordered (h : tree.Mirrors documents) (h' : tree'.Mirrors documents)
    (hp : tree.Proper) (hp' : tree'.Proper) : tree.Reordered tree' where
  keys := h.perm_keys h' hp hp' (nodeFrom?_nil _) (nodeFrom?_nil _)
  node? path := h.alike h' hp hp' (segments path)

end PropertyTree

/-! ### The tree of a source -/

namespace Source

open PropertyTree

variable {source : Source} {tree : PropertyTree} {paths : List String}

/-- What the documents of a source are in its tree: at the ways that their paths tell. -/
theorem mirrors_of_apart (hd : source.documents = .ok paths)
    (hne : ∀ path ∈ paths, segments path ≠ [])
    (hapart : paths.Pairwise fun a b => Apart (segments a) (segments b)) :
    ∃ tree, source.tree = .ok tree ∧ tree.Proper ∧
      tree.Mirrors (paths.map fun path => (segments path, source.indexed path)) :=
  ⟨_, tree_of_documents hd, proper_tree (tree_of_documents hd), mirrors_foldl hne hapart _⟩

/-- The document at a path of the tree of a source. -/
theorem document?_of_tree (hd : source.documents = .ok paths) (ht : source.tree = .ok tree)
    (path : String) :
    tree.document? path = (decisive? paths path).bind fun listed =>
      if segments listed = segments path then some (source.indexed listed) else none := by
  rw [tree_of_documents hd] at ht
  cases ht
  exact document?_foldl paths source.indexed path

/-- Where no document lies on the way to another, the tree of a source holds exactly its documents, those
that cannot be read without properties; and the order in which they are listed does not matter but for the
order of the entries. -/
theorem tree_of_apart (hd : source.documents = .ok paths)
    (hne : ∀ path ∈ paths, segments path ≠ [])
    (hapart : paths.Pairwise fun a b => Apart (segments a) (segments b)) :
    ∃ tree, source.tree = .ok tree ∧
      (∀ path ∈ paths, tree.document? path = some (source.indexed path)) ∧
      (∀ path, (∀ listed ∈ paths, segments listed ≠ segments path) → tree.document? path = none) ∧
      ∀ paths' : List String, paths'.Perm paths →
        ∃ tree', Source.tree ⟨.ok paths', source.properties⟩ = .ok tree' ∧ tree'.Reordered tree := by
  obtain ⟨tree, ht, hp, hm⟩ := mirrors_of_apart hd hne hapart
  refine ⟨tree, ht, ?_, ?_, ?_⟩
  · intro path hmem
    have hnode : tree.node? path = some (.document (source.indexed path)) :=
      (hm.document_iff _ _).2 (List.mem_map.2 ⟨path, hmem, rfl⟩)
    rw [document?, hnode]
  · intro path hno
    have hnode (properties : Properties) : tree.node? path ≠ some (.document properties) := by
      intro hn
      obtain ⟨listed, hl, he⟩ := List.mem_map.1 ((hm.document_iff _ _).1 hn)
      exact hno listed hl (Prod.mk.inj he).1
    rw [document?]
    cases hn : tree.node? path with
    | none => rfl
    | some node =>
      cases node with
      | document properties => exact absurd hn (hnode properties)
      | folder entries => rfl
  · intro paths' hperm
    have hapart' : paths'.Pairwise fun a b => Apart (segments a) (segments b) :=
      hapart.perm hperm.symm fun h => h.symm
    have hd' : Source.documents ⟨.ok paths', source.properties⟩ = .ok paths' := rfl
    obtain ⟨tree', ht', hp', hm'⟩ :=
      mirrors_of_apart hd' (fun path h => hne path (hperm.subset h)) hapart'
    exact ⟨tree', ht', (hm'.of_perm (hperm.map _)).reordered hm hp' hp⟩

/-- Two documents in a folder, one of which cannot be read, and one beside it. -/
def folderVault : MemoryVault where
  documents := [("a/x.md", [("n", .integer 1)]), ("a//y.md", [("n", .integer 2)]), ("b.md", [])]
  unreadable := ["a//y.md"]
  unlisted := false

theorem tree_of_apart_folderVault :
    ∃ paths, folderVault.source.documents = .ok paths ∧ (∀ path ∈ paths, segments path ≠ []) ∧
      (paths.Pairwise fun a b => Apart (segments a) (segments b)) ∧
      ∃ tree, folderVault.source.tree = .ok tree ∧ tree.document? "a/x.md" = some [("n", .integer 1)] ∧
        tree.document? "a//y.md" = some [] ∧ tree.document? "a" = none := by
  have hd : folderVault.source.documents = .ok ["a/x.md", "a//y.md", "b.md"] := rfl
  have hx : segments "a/x.md" = ["a", "x.md"] := by cbv
  have hy : segments "a//y.md" = ["a", "y.md"] := by cbv
  have hb : segments "b.md" = ["b.md"] := by cbv
  have ha : segments "a" = ["a"] := by cbv
  have hne : ∀ path ∈ ["a/x.md", "a//y.md", "b.md"], segments path ≠ [] := by simp [hx, hy, hb]
  have hapart : ["a/x.md", "a//y.md", "b.md"].Pairwise fun a b => Apart (segments a) (segments b) := by
    simp [hx, hy, hb, Apart]
  obtain ⟨tree, ht, hlisted, hother, -⟩ := tree_of_apart hd hne hapart
  refine ⟨_, hd, hne, hapart, tree, ht, ?_, ?_, ?_⟩
  · exact hlisted "a/x.md" (by decide)
  · exact hlisted "a//y.md" (by decide)
  · exact hother "a" (by simp [hx, hy, hb, ha])

end Source

end LiveNotes
