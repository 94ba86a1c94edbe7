import Mathlib
import LiveNotes.Proofs.Store.Tree
import LiveNotes.Store.Basic

/-!
What refreshes do to a store, and what it shows after any number of them.

* `ShowsSame`: two stores show the same, whichever document is active;
* `refresh_of_unlisted`: a refresh that fails leaves all that a store shows, but it can leave another
  document active;
* `showsSame_run`: after any run of changes and refreshes a store shows what a new one shows, built from
  the vault as it was at the last refresh that did not fail.
-/

namespace LiveNotes

namespace PropertyStore

variable {store store' : PropertyStore} {source : Source} {tree : PropertyTree} {e : SourceError}

/-! ### One refresh -/

/-- What a refresh that did not fail leaves. -/
theorem exists_of_refresh (h : store.refresh source = (.ok (), store')) :
    ∃ tree, source.tree = .ok tree ∧ store' = reindex { store with tree := tree } := by
  unfold refresh at h
  cases ht : source.tree with
  | error e =>
    rw [ht] at h
    cases h
  | ok tree =>
    rw [ht] at h
    cases h
    exact ⟨tree, rfl, rfl⟩

theorem refresh_of_error (h : source.tree = .error e) : store.refresh source = (.error e, store) := by
  rw [refresh, h]

/-! ### What a store shows -/

/-- All that two stores show is the same. Which document is active is not part of it. -/
structure ShowsSame (a b : PropertyStore) : Prop where
  tree : a.tree = b.tree
  localProperties : a.localProperties = b.localProperties
  localPaths : a.localPaths = b.localPaths
  allPaths : a.allPaths = b.allPaths
  get? : ∀ path, a.get? path = b.get? path
  pathsContaining : ∀ part, a.pathsContaining part = b.pathsContaining part
  pathsStartingWith : ∀ start, a.pathsStartingWith start = b.pathsStartingWith start
  localPathsContaining : ∀ part, a.localPathsContaining part = b.localPathsContaining part
  withTexts : ∀ paths, a.withTexts paths = b.withTexts paths
  preview : ∀ path, a.preview path = b.preview path

/-- Every answer is computed from the tree, the local properties and the two lists of paths. -/
theorem ShowsSame.of_fields {a b : PropertyStore} (htree : a.tree = b.tree)
    (hproperties : a.localProperties = b.localProperties) (hlocal : a.localPaths = b.localPaths)
    (hall : a.allPaths = b.allPaths) : a.ShowsSame b := by
  have hget : ∀ path, a.get? path = b.get? path := fun path => by
    rw [PropertyStore.get?, PropertyStore.get?, hproperties, htree]
  exact {
    tree := htree
    localProperties := hproperties
    localPaths := hlocal
    allPaths := hall
    get? := hget
    pathsContaining := fun part => by
      rw [PropertyStore.pathsContaining, PropertyStore.pathsContaining, hall]
    pathsStartingWith := fun start => by
      rw [PropertyStore.pathsStartingWith, PropertyStore.pathsStartingWith, hall]
    localPathsContaining := fun part => by
      rw [PropertyStore.localPathsContaining, PropertyStore.localPathsContaining, hlocal]
    withTexts := fun paths => List.map_congr_left fun path _ => by rw [hget]
    preview := fun path => by rw [PropertyStore.preview, PropertyStore.preview, hget] }

theorem ShowsSame.refl (store : PropertyStore) : store.ShowsSame store := .of_fields rfl rfl rfl rfl

theorem ShowsSame.trans {a b c : PropertyStore} (h : a.ShowsSame b) (h' : b.ShowsSame c) :
    a.ShowsSame c :=
  .of_fields (h.tree.trans h'.tree) (h.localProperties.trans h'.localProperties)
    (h.localPaths.trans h'.localPaths) (h.allPaths.trans h'.allPaths)

/-- Nothing that a store shows tells which document is active, until it is refreshed. -/
theorem showsSame_active (store : PropertyStore) (active : Option String) :
    ShowsSame { store with active := active } store := .of_fields rfl rfl rfl rfl

/-! ### A refresh that fails -/

/-- A refresh from a source that cannot list its documents fails and leaves the store as it was. One for
a document fails too and leaves all that the store shows; but the document is the active one from then
on, so that the store is as it was only if it had been before. -/
theorem refresh_of_unlisted (h : source.documents = .error e) :
    store.refresh source = (.error e, store) ∧
    ∀ document, ∃ store', store.refreshFor source document = (.error e, store') ∧
      store'.ShowsSame store ∧ store'.active = some document ∧
      (store' = store ↔ store.active = some document) := by
  have ht := Source.tree_of_unlisted h
  refine ⟨refresh_of_error ht, fun document => ⟨_, refresh_of_error ht, ?_, rfl, ?_⟩⟩
  · exact showsSame_active store (some document)
  · constructor
    · intro hs
      rw [← hs]
    · intro ha
      rw [← ha]

/-- Two documents with one property each. -/
def countVault : MemoryVault where
  documents := [("a.md", [("count", .integer 1)]), ("b.md", [("count", .integer 2)])]
  unreadable := []
  unlisted := false

/-- The vault while its documents cannot be listed. -/
def lostVault : MemoryVault := { countVault with unlisted := true }

/-- The store of the vault, with its first document active. -/
def countStore : PropertyStore where
  tree := [("a.md", .document [("count", .integer 1)]), ("b.md", .document [("count", .integer 2)])]
  active := some "a.md"
  localProperties := some [("count", .integer 1)]
  localPaths := ["count"]
  allPaths := ["count", "a.md", "a.md/count", "b.md", "b.md/count"]

theorem refreshFor_countVault : empty.refreshFor countVault.source "a.md" = (.ok (), countStore) := by
  cbv

theorem refresh_of_unlisted_lostVault :
    lostVault.source.documents = .error (.notFound "vault") ∧
    countStore.refresh lostVault.source = (.error (.notFound "vault"), countStore) ∧
    countStore.refreshFor lostVault.source "a.md" = (.error (.notFound "vault"), countStore) := by
  have hlost : lostVault.source.documents = .error (.notFound "vault") := rfl
  obtain ⟨hrefresh, hfor⟩ := @refresh_of_unlisted countStore _ _ hlost
  obtain ⟨store', he, -, -, hiff⟩ := hfor "a.md"
  exact ⟨hlost, hrefresh, hiff.2 rfl ▸ he⟩

/-- A refresh for a document that fails does not leave the store as it was: another document is said to
be active than the one whose properties are the local ones. -/
theorem refreshFor_lostVault_ne :
    empty.refreshFor countVault.source "a.md" = (.ok (), countStore) ∧
    ∃ store', countStore.refreshFor lostVault.source "b.md" = (.error (.notFound "vault"), store') ∧
      store' ≠ countStore ∧ store'.active = some "b.md" ∧
      store'.localProperties = store'.tree.document? "a.md" ∧
      store'.get? "count" = some (.integer 1) := by
  refine ⟨refreshFor_countVault, { countStore with active := some "b.md" }, by cbv, ?_, rfl, ?_, ?_⟩
  · intro he
    exact absurd (congrArg PropertyStore.active he) (by decide)
  · cbv
  · cbv

/-! ### Fresh stores -/

/-- The store that a tree and an active document give. -/
def ofTree (tree : PropertyTree) (active : Option String) : PropertyStore :=
  reindex ⟨tree, active, none, [], []⟩

/-- A store built from a source and switched to a document, if there is one to switch to. -/
def fresh (source : Source) (active : Option String) : Except SourceError PropertyStore :=
  match ofSource source with
  | .error e => .error e
  | .ok store =>
    match active with
    | none => .ok store
    | some document =>
      match store.refreshFor source document with
      | (.ok (), store) => .ok store
      | (.error e, _) => .error e

theorem refresh_eq_ofTree (h : source.tree = .ok tree) :
    store.refresh source = (.ok (), ofTree tree store.active) := by
  rw [refresh, h]
  rfl

theorem fresh_of_tree (h : source.tree = .ok tree) (active : Option String) :
    fresh source active = .ok (ofTree tree active) := by
  have hs : ofSource source = .ok (ofTree tree none) := by
    rw [ofSource, refresh_eq_ofTree h]
    rfl
  have hfor (store : PropertyStore) (document : String) :
      store.refreshFor source document = (.ok (), ofTree tree (some document)) := refresh_eq_ofTree h
  rw [fresh, hs]
  cases active with
  | none => rfl
  | some document => simp only [hfor]

/-! ### Runs of changes and refreshes -/

/-- What can happen to a vault and the store that is built from it. -/
inductive Event where
  | insert (path : String) (properties : Properties)
  | remove (path : String)
  | spoil (path : String)
  | mend (path : String)
  | unlist (fails : Bool)
  | refresh
  | refreshFor (document : String)

/-- A vault, and the store that is built from it. -/
structure Session where
  vault : MemoryVault
  store : PropertyStore

namespace Session

/-- A change of the vault leaves the store alone, and a refresh the vault. -/
def step (s : Session) : Event → Session
  | .insert path properties => { s with vault := s.vault.insert path properties }
  | .remove path => { s with vault := s.vault.remove path }
  | .spoil path => { s with vault := s.vault.spoil path }
  | .mend path => { s with vault := s.vault.mend path }
  | .unlist fails => { s with vault := { s.vault with unlisted := fails } }
  | .refresh => { s with store := (s.store.refresh s.vault.source).2 }
  | .refreshFor document => { s with store := (s.store.refreshFor s.vault.source document).2 }

/-- Whether an event is a refresh that does not fail. -/
def renews (s : Session) : Event → Bool
  | .refresh => (s.store.refresh s.vault.source).1.isOk
  | .refreshFor document => (s.store.refreshFor s.vault.source document).1.isOk
  | _ => false

/-- A session after a run of events. -/
def run (s : Session) (events : List Event) : Session := events.foldl step s

/-- The session right after the last refresh of a run that did not fail; `last` if all of them fail. -/
def lastRenewed (last s : Session) : List Event → Session
  | [] => last
  | event :: events =>
    (if s.renews event then s.step event else last).lastRenewed (s.step event) events

/-- The store of a session shows what the vault and the active document of an earlier one give. -/
def ShowsVault (s last : Session) : Prop :=
  ∃ tree, last.vault.source.tree = .ok tree ∧ s.store.ShowsSame (ofTree tree last.store.active)

variable {s last : Session}

/-- After a refresh that does not fail the store shows the vault as it is, and otherwise what it showed
before. -/
theorem ShowsVault.step (h : s.ShowsVault last) (event : Event) :
    (s.step event).ShowsVault (if s.renews event then s.step event else last) := by
  obtain ⟨tree, ht, hs⟩ := h
  -- a refresh of a store that shows the same and has perhaps another active document
  have hrefresh : ∀ store : PropertyStore, store.ShowsSame s.store →
      ShowsVault ⟨s.vault, (store.refresh s.vault.source).2⟩
        (if (store.refresh s.vault.source).1.isOk then ⟨s.vault, (store.refresh s.vault.source).2⟩
          else last) := by
    intro store hstore
    cases hv : s.vault.source.tree with
    | error e =>
      rw [refresh_of_error hv]
      exact ⟨tree, ht, hstore.trans hs⟩
    | ok tree' =>
      rw [refresh_eq_ofTree hv]
      exact ⟨tree', hv, .refl _⟩
  cases event with
  | insert | remove | spoil | mend | unlist => exact ⟨tree, ht, hs⟩
  | refresh => exact hrefresh s.store (.refl _)
  | refreshFor document => exact hrefresh _ (showsSame_active s.store (some document))

theorem ShowsVault.run (h : s.ShowsVault last) (events : List Event) :
    (s.run events).ShowsVault (last.lastRenewed s events) := by
  induction events generalizing s last with
  | nil => exact h
  | cons event events ih => exact ih (h.step event)

end Session

/-- A store never mixes two versions of a vault: after every run of changes and refreshes, whichever of
them fail, it shows the same as a fresh store, built from the vault as it was at the last refresh that did
not fail and switched to the document that was active then. -/
theorem showsSame_run {vault : MemoryVault} (h : ofSource vault.source = .ok store)
    (events : List Event) :
    let start : Session := ⟨vault, store⟩
    let last := start.lastRenewed start events
    ∃ store', fresh last.vault.source last.store.active = .ok store' ∧
      (start.run events).store.ShowsSame store' := by
  intro start last
  have hstart : start.ShowsVault start := by
    cases ht : vault.source.tree with
    | error e =>
      rw [ofSource, refresh_of_error ht] at h
      cases h
    | ok tree =>
      rw [ofSource, refresh_eq_ofTree ht] at h
      cases h
      exact ⟨tree, ht, .refl _⟩
  obtain ⟨tree, ht, hs⟩ := hstart.run events
  exact ⟨_, fresh_of_tree ht _, hs⟩

/-- A run in which a document cannot be read for a while; then the vault changes, cannot be listed any
more, and is asked for in vain. -/
def countRun : List Event :=
  [.spoil "b.md", .refresh, .mend "b.md", .refreshFor "b.md", .insert "b.md" [("count", .integer 3)],
    .unlist true, .refreshFor "a.md", .remove "a.md", .spoil "b.md", .refresh]

theorem showsSame_run_countRun :
    ∃ store, ofSource countVault.source = .ok store ∧
      ∃ store', fresh countVault.source (some "b.md") = .ok store' ∧
        (Session.run ⟨countVault, store⟩ countRun).store.ShowsSame store' ∧
        store'.get? "count" = some (.integer 2) := by
  have hstore : ofSource countVault.source = .ok (ofTree countStore.tree none) := by cbv
  have hlast : Session.lastRenewed ⟨countVault, ofTree countStore.tree none⟩
      ⟨countVault, ofTree countStore.tree none⟩ countRun =
        ⟨countVault, ofTree countStore.tree (some "b.md")⟩ := by cbv
  obtain ⟨store', hfresh, hsame⟩ := showsSame_run hstore countRun
  rw [hlast] at hfresh
  have hget : (ofTree countStore.tree (some "b.md")).get? "count" = some (.integer 2) := by cbv
  have hb : fresh countVault.source (some "b.md") = .ok (ofTree countStore.tree (some "b.md")) := by cbv
  refine ⟨_, hstore, store', hfresh, hsame, ?_⟩
  cases hb.symm.trans hfresh
  exact hget

end PropertyStore

end LiveNotes
