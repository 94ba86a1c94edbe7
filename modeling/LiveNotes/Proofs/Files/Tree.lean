import LiveNotes.Files.Tree

/-!
A file that was written is read again. Writing puts a file at the end of a way through folders; the way
stays the same, since no folder on it is behind that end.

* `FileTree.find?_put`, `FileTree.folder_put`: what is found in a tree where something was put;
* `FileTree.way_put`: the way to a file is the same when the file is there;
* `FileTree.read_of_write`: the content of a file that was written.
-/

namespace LiveNotes

namespace FileTree

variable {α : Type} {tree tree' : FileTree α} {names target parts : List String}

/-- A folder is found at the end of a row of names. -/
def IsFolder (tree : FileTree α) (names : List String) : Prop :=
  ∃ entries, tree.find? names = some (.folder entries)

/-- What is put at the end of a row of names is found there, whatever stood there before. -/
theorem find?_put (tree : Option (FileTree α)) (names : List String) (value : FileTree α) :
    (put tree names value).find? names = some value := by
  induction names generalizing tree with
  | nil => rfl
  | cons name names ih =>
    simp only [put, find?, entriesOf, Entries.get?_insert, if_true]
    exact ih _

theorem find?_cons_eq_some {name : String} {found : FileTree α} (h : tree.find? (name :: names) = some found) :
    ∃ inner, Entries.get? (entriesOf (some tree)) name = some inner ∧ inner.find? names = some found := by
  unfold find? at h
  cases hget : Entries.get? (entriesOf (some tree)) name with
  | none =>
    rw [hget] at h
    cases h
  | some inner =>
    rw [hget] at h
    exact ⟨inner, rfl, h⟩

/-- On the way to a folder there are folders. -/
theorem IsFolder.of_append {more : List String} (h : tree.IsFolder (names ++ more)) : tree.IsFolder names := by
  induction names generalizing tree with
  | nil =>
    obtain ⟨entries, hfound⟩ := h
    cases tree with
    | folder entries => exact ⟨entries, rfl⟩
    | file content =>
      cases more with
      | nil => cases hfound
      | cons name more =>
        obtain ⟨inner, hget, -⟩ := find?_cons_eq_some hfound
        cases hget
  | cons name names ih =>
    obtain ⟨entries, hfound⟩ := h
    obtain ⟨inner, hget, hinner⟩ := find?_cons_eq_some hfound
    obtain ⟨entries, hfolder⟩ := ih ⟨entries, hinner⟩
    refine ⟨entries, ?_⟩
    unfold find?
    rw [hget]
    exact hfolder

/-- A folder that is not behind the place where something is put is still one. -/
theorem folder_put {value : FileTree α} (h : tree.IsFolder names) (hn : ¬ target <+: names) :
    (put (some tree) target value).IsFolder names := by
  induction target generalizing tree names with
  | nil => exact absurd List.nil_prefix hn
  | cons name target ih =>
    cases names with
    | nil => exact ⟨_, rfl⟩
    | cons other names =>
      obtain ⟨entries, hfound⟩ := h
      obtain ⟨inner, hget, hinner⟩ := find?_cons_eq_some hfound
      unfold IsFolder find? put
      simp only [entriesOf, Entries.get?_insert]
      by_cases hname : name = other
      · subst hname
        rw [if_pos rfl]
        simp only [entriesOf] at hget
        rw [hget]
        refine ih ⟨entries, hinner⟩ fun hp => hn ?_
        rwa [List.prefix_cons_inj]
      · rw [if_neg hname]
        simp only [entriesOf] at hget
        rw [hget]
        exact ⟨entries, hinner⟩

/-- One part of a path leads on from a folder; where to does not depend on what is in it. -/
theorem step_eq_ok_iff {part : String} :
    tree.step names part = .ok parts ↔ tree.IsFolder names ∧
      (if part == "" || part == "." then .ok names else if part == ".." then .ok names.dropLast
        else if longestName < part.utf8ByteSize then .error FileError.nameTooLong
        else .ok (names ++ [part])) = Except.ok parts := by
  unfold step IsFolder
  split
  · next h => simp [h]
  · next h => simp [h]
  · next entries h => simp [h]

/-- The way to a place where no folder is does not change when something is put there. -/
theorem way_put {path : String} {value : FileTree α} (h : tree.way path = .ok target)
    (htarget : ¬ tree.IsFolder target) : (put (some tree) target value).way path = .ok target := by
  have hsteps : ∀ (ps : List String) (start : List String), ps.foldlM tree.step start = .ok target →
      ps.foldlM (put (some tree) target value).step start = .ok target := by
    intro ps
    induction ps with
    | nil => exact fun _ h => h
    | cons p ps ih =>
      intro start hfold
      rw [List.foldlM_cons] at hfold
      cases hp : tree.step start p with
      | error e =>
        rw [hp] at hfold
        cases hfold
      | ok next =>
        rw [hp] at hfold
        obtain ⟨hfolder, hnext⟩ := step_eq_ok_iff.1 hp
        have hbefore : ¬ target <+: start := by
          rintro ⟨more, rfl⟩
          exact htarget hfolder.of_append
        rw [List.foldlM_cons, step_eq_ok_iff.2 ⟨folder_put hfolder hbefore, hnext⟩]
        exact ih next hfold
  unfold way at h ⊢
  split
  · next hnul =>
    rw [if_pos hnul] at h
    cases h
  · next hnul =>
    rw [if_neg hnul] at h
    exact hsteps _ _ h

/-- What a write does: the file stands at the end of the way, where no folder was. -/
theorem eq_put_of_write {path : String} {content : α} (h : tree.write path content = .ok tree') :
    ∃ target, tree.way path = .ok target ∧ ¬ tree.IsFolder target ∧
      tree' = put (some tree) target (.file content) := by
  unfold write at h
  cases hway : tree.way path with
  | error e =>
    rw [hway] at h
    cases h
  | ok target =>
    rw [hway] at h
    dsimp only [bind, Except.bind] at h
    split at h
    · cases h
    · next hfile =>
      cases h
      refine ⟨target, rfl, ?_, rfl⟩
      rintro ⟨entries, hfound⟩
      exact hfile entries hfound

/-- The content of a file that was written. -/
theorem read_of_write {path : String} {content : α} (h : tree.write path content = .ok tree') :
    tree'.read path = .ok content := by
  obtain ⟨target, hway, hfolder, rfl⟩ := eq_put_of_write h
  unfold read lookup
  rw [way_put hway hfolder]
  dsimp only [bind, Except.bind]
  rw [find?_put]
  rfl

end FileTree

end LiveNotes
