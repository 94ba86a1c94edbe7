import LiveNotes.Files.Disk
import LiveNotes.Proofs.Files.Tree

/-!
Programs that use a disk, run on its state, one operation after the other.

* `run_bind_ok`, `run_bind_error`, `run_adapt`: what a program does behind an operation;
* `Disk.Recalls`: a disk that gives back what was written; `recalls_inMemory`: a tree in memory does.
-/

namespace LiveNotes

section Runs

variable {σ α β : Type} {ε : Type}

theorem run_bind_ok {x : ExceptT ε (StateM σ) α} {f : α → ExceptT ε (StateM σ) β} {s s' : σ} {a : α}
    (h : x.run.run s = (.ok a, s')) : (x >>= f).run.run s = (f a).run.run s' := by
  rw [ExceptT.run_bind, StateT.run_bind]
  simp only [h]
  rfl

theorem run_bind_error {x : ExceptT ε (StateM σ) α} {f : α → ExceptT ε (StateM σ) β} {s s' : σ} {e : ε}
    (h : x.run.run s = (.error e, s')) : (x >>= f).run.run s = (.error e, s') := by
  rw [ExceptT.run_bind, StateT.run_bind]
  simp only [h]
  rfl

/-- What succeeds, succeeds in both of its steps. -/
theorem exists_of_run_bind {x : ExceptT ε (StateM σ) α} {f : α → ExceptT ε (StateM σ) β} {s s' : σ} {b : β}
    (h : (x >>= f).run.run s = (.ok b, s')) :
    ∃ a t, x.run.run s = (.ok a, t) ∧ (f a).run.run t = (.ok b, s') := by
  rcases hx : x.run.run s with ⟨_ | a, t⟩
  · rw [run_bind_error hx] at h
    cases h
  · exact ⟨a, t, rfl, (run_bind_ok hx).symm.trans h⟩

theorem run_adapt {ε' : Type} {x : ExceptT ε (StateM σ) α} {r : Except ε α} {s s' : σ} (g : ε → ε')
    (h : x.run.run s = (r, s')) : (ExceptT.adapt g x).run.run s = (r.mapError g, s') := by
  change (Except.mapError g <$> x.run).run s = _
  rw [StateT.run_map, h]
  rfl

theorem run_of_run_adapt {ε' : Type} {x : ExceptT ε (StateM σ) α} {s s' : σ} {a : α} {g : ε → ε'}
    (h : (ExceptT.adapt g x).run.run s = (.ok a, s')) : x.run.run s = (.ok a, s') := by
  rcases hx : x.run.run s with ⟨_ | b, t⟩
  · rw [run_adapt g hx] at h
    cases h
  · rw [run_adapt g hx] at h
    cases h
    rfl

end Runs

/-- After a text was written to the file of a path, it is what is read there. -/
def Disk.Recalls {σ : Type} (disk : Disk (StateM σ)) (path : String) : Prop :=
  ∀ text s s', (disk.write path text).run.run s = (.ok (), s') →
    (disk.read path).run.run s' = (.ok text, s')

/-- The bytes of a text are that text. -/
theorem textOfBytes_toUTF8 (text : String) : textOfBytes text.toUTF8 = .ok text := by
  have hvalid : text.toUTF8.IsValidUTF8 := text.isValidUTF8
  unfold textOfBytes String.fromUTF8?
  rw [dif_pos hvalid]
  rfl

/-- A write to a tree in memory. -/
theorem write_inMemory {path text : String} {tree tree' : FileTree ByteArray}
    (h : tree.write path text.toUTF8 = .ok tree') :
    (Disk.inMemory.write path text).run.run tree = (.ok (), tree') := by
  have hlift : (liftM (tree.write path text.toUTF8) :
      ExceptT FileError (StateM (FileTree ByteArray)) _).run.run tree = (.ok tree', tree) := by
    rw [h]
    rfl
  have hget : (get : ExceptT FileError (StateM (FileTree ByteArray)) _).run.run tree =
      (.ok tree, tree) := rfl
  exact (run_bind_ok hget).trans (run_bind_ok hlift)

/-- A tree in memory gives back what was written. -/
theorem recalls_inMemory (path : String) : Disk.inMemory.Recalls path := by
  intro text tree tree' h
  obtain ⟨before, t, hget, h⟩ := exists_of_run_bind h
  cases hget
  obtain ⟨written, t, hwrite, h⟩ := exists_of_run_bind h
  obtain ⟨hwritten, rfl⟩ := Prod.mk.inj hwrite
  obtain rfl : written = tree' := (Prod.mk.inj h).2
  change ((written.read path >>= textOfBytes : Except FileError String), written) = _
  rw [FileTree.read_of_write hwritten]
  exact congrArg (·, written) (textOfBytes_toUTF8 text)

end LiveNotes
