import LiveNotes.Proofs.Store.Refresh
import LiveNotes.Query.Eval

/-!
What the store suggests, and what a query makes of it. A store and a reference find values each in its
own way: the store follows a path through the tree up to the first document, and looks at the properties
of the active document before that; a reference is cut at its last slash.

* `resolve?_of_not_mem`, `resolve?_append`: a reference without a slash, and one with a document in
  front of its last slash;
* `resolve?_qualified`: both kinds of references find the same, and the second kind what its global path
  leads to;
* `get?_eq_resolve?`: both agree on the paths listed, as long as no property has a slash in its path;
* `get?_ne_resolve?`: they do not agree on all of them.
-/

namespace LiveNotes

open Text

variable {context : Context} {path : String}

/-! ### References -/

/-- A reference without a slash is a path inside the document that it stands in. -/
theorem resolve?_of_not_mem (hp : '/' ∉ path.toList) :
    resolve? context path = (context.tree.document? context.document).bind (·.lookup? path) := by
  by_cases he : path = ""
  · subst he
    have hnone : ∀ properties : Properties, properties.lookup? "" = none := fun _ => rfl
    cases context.tree.document? context.document <;> simp [resolve?, hnone]
  · rw [resolve?, if_neg (by simpa using he), splitReference, cutLast?_eq_none hp]

theorem splitReference_append (current : String) {document : String} (hp : '/' ∉ path.toList) :
    splitReference current (document ++ "/" ++ path) = (document, path) := by
  have hs : (document ++ "/" ++ path).toList = document.toList ++ '/' :: path.toList := by
    rw [String.toList_append, String.toList_append, List.append_assoc]
    rfl
  rw [splitReference, hs, cutLast?_append hp]
  simp

theorem exists_eq_append_of_mem {reference : String} (h : '/' ∈ reference.toList) :
    ∃ document path, '/' ∉ path.toList ∧ reference = document ++ "/" ++ path := by
  obtain ⟨before, behind, hm, he⟩ := exists_last_of_mem h
  refine ⟨.ofList before, .ofList behind, by simpa using hm, ?_⟩
  rw [← String.toList_inj, he]
  simp

/-- A reference with a document in front of its last slash is a path inside that document, wherever it
stands. -/
theorem resolve?_append (context : Context) (document : String) (hp : '/' ∉ path.toList) :
    resolve? context (document ++ "/" ++ path) =
      (context.tree.document? document).bind (·.lookup? path) := by
  have hne : (document ++ "/" ++ path).isEmpty = false := by simp
  rw [resolve?, hne, splitReference_append _ hp]
  simp

/-- A property of a document is found by its global path, if it has no slash in its own. -/
theorem PropertyTree.HasDocument.resolve?_append {document : String} {properties : Properties}
    (h : context.tree.HasDocument document properties) (ht : context.tree.Proper)
    (hp : '/' ∉ path.toList) :
    resolve? context (document ++ "/" ++ path) = properties.lookup? path := by
  rw [LiveNotes.resolve?_append context document hp, h.document? ht, Option.bind_some]

/-- References with and without a document in front agree. If no part in front of the last slash is
empty, what such a reference finds is what stands at the global path that it is. And a path without a
slash finds in a document what it finds anywhere else with that document in front. -/
theorem resolve?_qualified (context : Context) :
    (∀ (reference : String) (v : Value), '/' ∈ reference.toList →
      "" ∉ slashParts (splitReference context.document reference).1 →
      resolve? context reference = some v → context.tree.get? reference = some v) ∧
    (∀ document path : String, '/' ∉ path.toList →
      resolve? { context with document := document } path =
        resolve? context (document ++ "/" ++ path)) := by
  constructor
  · intro reference v hs hparts h
    obtain ⟨document, path, hp, rfl⟩ := exists_eq_append_of_mem hs
    rw [splitReference_append _ hp] at hparts
    rw [resolve?_append context document hp] at h
    obtain ⟨properties, hd, hv⟩ := Option.bind_eq_some_iff.1 h
    -- the way to the document is what the parts in front of the last slash are
    rw [PropertyTree.document?_eq_some_iff, segments_eq_slashParts hparts] at hd
    rw [PropertyTree.get?_append_slash hd, hv]
  · intro document path hp
    rw [resolve?_of_not_mem hp, resolve?_append context document hp]

/-- A tree with a document in a folder, and one whose property has a slash in its name. -/
def folderTree : PropertyTree :=
  [("a", .folder [("x.md", .document [("n", .object [("k", .integer 1)])])]),
    ("b.md", .document [("x.md/n", .integer 3)])]

theorem resolve?_qualified_folderTree :
    '/' ∈ "a/x.md/n.k".toList ∧
    "" ∉ slashParts (splitReference "b.md" "a/x.md/n.k").1 ∧
    resolve? ⟨"b.md", folderTree, [], 0⟩ "a/x.md/n.k" = some (.integer 1) ∧
    folderTree.get? "a/x.md/n.k" = some (.integer 1) ∧
    '/' ∉ "n.k".toList ∧
    resolve? ⟨"a//x.md", folderTree, [], 0⟩ "n.k" =
      resolve? ⟨"b.md", folderTree, [], 0⟩ ("a//x.md" ++ "/" ++ "n.k") := by
  have hs : '/' ∈ "a/x.md/n.k".toList := by decide
  have hp : '/' ∉ "n.k".toList := by decide
  have hsplit : splitReference "b.md" "a/x.md/n.k" = ("a/x.md", "n.k") := by cbv
  have hparts : slashParts "a/x.md" = ["a", "x.md"] := by cbv
  have hne : "" ∉ slashParts (splitReference "b.md" "a/x.md/n.k").1 := by simp [hsplit, hparts]
  have hvalue : resolve? ⟨"b.md", folderTree, [], 0⟩ "a/x.md/n.k" = some (.integer 1) := by cbv
  obtain ⟨hglobal, hlocal⟩ := resolve?_qualified ⟨"b.md", folderTree, [], 0⟩
  exact ⟨hs, hne, hvalue, hglobal _ _ hs hne hvalue, hp, hlocal "a//x.md" "n.k" hp⟩

/-! ### The store -/

namespace PropertyStore

variable {store store' : PropertyStore} {source : Source}

/-- A path is looked up in the active document first. -/
theorem get?_eq_or (store : PropertyStore) (path : String) :
    store.get? path = (store.localProperties.bind (·.lookup? path)).or (store.tree.get? path) := by
  unfold get?
  cases store.localProperties.bind (·.lookup? path) <;> rfl

/-- The store and references agree on what a refreshed store lists, as far as it has no slash in the
path of a property: on a local path, unless nothing stands there and a document of the top folder has
that name; on the global path of a property always. -/
theorem get?_eq_resolve? (h : store.refresh source = (.ok (), store')) :
    (∀ document, store.active = some document → ∀ path ∈ store'.localPaths, '/' ∉ path.toList →
      ∀ context : Context, context.tree = store'.tree → context.document = document →
        (store'.get? path = resolve? context path ↔
          resolve? context path ≠ none ∨ store'.tree.document? path = none)) ∧
    (∀ document properties, store'.tree.HasDocument document properties →
      ∀ path ∈ properties.flatten.map (·.1), '/' ∉ path.toList →
        document ++ "/" ++ path ∈ store'.tree.paths ∧
        ∀ context : Context, context.tree = store'.tree →
          store'.tree.get? (document ++ "/" ++ path) = resolve? context (document ++ "/" ++ path)) := by
  obtain ⟨tree, ht, rfl⟩ := exists_of_refresh h
  have hproper := Source.proper_tree ht
  constructor
  · rintro document ha path - hp context htree rfl
    have hres : (store.active.bind tree.document?).bind (·.lookup? path) = resolve? context path := by
      rw [resolve?_of_not_mem hp, ha, htree]
      rfl
    have hget : get? (reindex { store with tree := tree }) path =
        (resolve? context path).or ((tree.document? path).map .object) := by
      rw [get?_eq_or, ← hproper.get?_of_not_mem hp, ← hres]
      rfl
    have hdoc : (reindex { store with tree := tree }).tree.document? path = tree.document? path := rfl
    rw [hget, hdoc]
    cases resolve? context path with
    | some v => simp
    | none => simp
  · intro document properties hd path hm hp
    refine ⟨(PropertyTree.mem_paths_iff hproper).2 (.inr ⟨document, properties, hd, path, hm, rfl⟩), ?_⟩
    intro context htree
    have hcontext : context.tree.HasDocument document properties := htree ▸ hd
    have hc : context.tree.Proper := htree ▸ hproper
    rw [hcontext.resolve?_append hc hp]
    exact hd.get?_append hproper path

/-- The properties of a document: one with a slash in its path, one whose path is the name of the
document, and one with neither. -/
def noteProperties : Properties := [("a", .string "u"), ("n.md", .string "v"), ("x/y", .string "w")]

/-- A vault with one document. -/
def noteVault : MemoryVault := ⟨[("n.md", noteProperties)], [], false⟩

/-- The store of the vault, with its document active. -/
def noteStore : PropertyStore where
  tree := [("n.md", .document noteProperties)]
  active := some "n.md"
  localProperties := some noteProperties
  localPaths := ["a", "n.md", "x/y"]
  allPaths := ["a", "n.md", "x/y", "n.md", "n.md/a", "n.md/n.md", "n.md/x/y"]

theorem refreshFor_noteVault : empty.refreshFor noteVault.source "n.md" = (.ok (), noteStore) := by
  cbv

theorem get?_eq_resolve?_noteVault :
    refresh { empty with active := some "n.md" } noteVault.source = (.ok (), noteStore) ∧
    noteStore.get? "a" = resolve? ⟨"n.md", noteStore.tree, [], 0⟩ "a" ∧
    noteStore.tree.get? "n.md/a" = resolve? ⟨"b.md", noteStore.tree, [], 0⟩ "n.md/a" := by
  obtain ⟨hlocal, hglobal⟩ := get?_eq_resolve? refreshFor_noteVault
  have hnone : noteStore.tree.document? "a" = none := by cbv
  have hdocument : noteStore.tree.HasDocument "n.md" noteProperties :=
    ⟨["n.md"], rfl, String.intercalate_singleton.symm⟩
  refine ⟨refreshFor_noteVault, ?_, ?_⟩
  · exact (hlocal "n.md" rfl "a" (by decide) (by decide) ⟨"n.md", noteStore.tree, [], 0⟩ rfl rfl).2
      (.inr hnone)
  · exact (hglobal "n.md" noteProperties hdocument "a" (by decide) (by decide)).2
      ⟨"b.md", noteStore.tree, [], 0⟩ rfl

/-- The store and references do not agree on all paths listed: not where a property has a slash in its
path, and not where a document has the name of a property that is not found. -/
theorem get?_ne_resolve? :
    (empty.refreshFor noteVault.source "n.md" = (.ok (), noteStore)) ∧
    ("x/y" ∈ noteStore.localPaths ∧
      noteStore.get? "x/y" ≠ resolve? ⟨"n.md", noteStore.tree, [], 0⟩ "x/y") ∧
    ("n.md" ∈ noteStore.localPaths ∧
      noteStore.get? "n.md" ≠ resolve? ⟨"n.md", noteStore.tree, [], 0⟩ "n.md") ∧
    ("n.md/x/y" ∈ noteStore.tree.paths ∧
      noteStore.tree.get? "n.md/x/y" ≠ resolve? ⟨"n.md", noteStore.tree, [], 0⟩ "n.md/x/y") := by
  have h1 : noteStore.get? "x/y" = some (.string "w") := by cbv
  have h2 : resolve? ⟨"n.md", noteStore.tree, [], 0⟩ "x/y" = none := by cbv
  have h3 : noteStore.get? "n.md" = some (.object noteProperties) := by cbv
  have h4 : resolve? ⟨"n.md", noteStore.tree, [], 0⟩ "n.md" = none := by cbv
  have h5 : noteStore.tree.get? "n.md/x/y" = some (.string "w") := by cbv
  have h6 : resolve? ⟨"n.md", noteStore.tree, [], 0⟩ "n.md/x/y" = none := by cbv
  have h7 : "n.md/x/y" ∈ noteStore.tree.paths := by decide
  rw [h1, h2, h3, h4, h5, h6]
  exact ⟨refreshFor_noteVault, ⟨by decide, Option.some_ne_none _⟩, ⟨by decide, Option.some_ne_none _⟩,
    h7, Option.some_ne_none _⟩

end PropertyStore

end LiveNotes
