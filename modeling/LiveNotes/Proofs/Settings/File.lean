import LiveNotes.Proofs.Files.Disk
import LiveNotes.Proofs.Json.Printer
import LiveNotes.Proofs.Store.Tree
import LiveNotes.Settings.Storage

/-!
Settings in a file. The file is a JSON record; what was saved is loaded again, whatever the names and the
code of the functions are.

* `CustomFunction.ofNode?_toNode`, `Settings.ofNode?_toNode`: records are taken apart into what they were
  made of;
* `Settings.load_store`: the text of the file is JSON, and settings that were stored are loaded.
-/

namespace LiveNotes

open Json

namespace CustomFunction

theorem legible_toNode (f : CustomFunction) : f.toNode.Legible := by
  refine .object ?_
  intro m hm
  rcases List.mem_pair.1 hm with rfl | rfl
  · exact .text f.name
  · exact .text f.code

theorem ofNode?_toNode (f : CustomFunction) : ofNode? f.toNode = some f := rfl

end CustomFunction

namespace Settings

variable {settings : Settings}

/-- The digits of a number below the bound are that number. -/
theorem natural?_ofNatural {n bound : Nat} (h : n < bound) : Node.natural? bound (.ofNatural n) = some n := by
  have hvalue : Number.digitsValue (Nat.toDigits 10 n) = n := Nat.ofDigitChars_ten_toDigits
  unfold Node.ofNatural Node.natural?
  simp only [hvalue]
  rw [if_pos h]

theorem legible_toNode (settings : Settings) : settings.toNode.Legible := by
  refine .object ?_
  intro m hm
  rcases List.mem_pair.1 hm with rfl | rfl
  · refine .array ?_
    intro n hn
    obtain ⟨f, -, rfl⟩ := List.mem_map.1 hn
    exact f.legible_toNode
  · exact legible_ofNatural settings.maxSteps

theorem functionsOf?_toNode (fs : List CustomFunction) :
    functionsOf? (.array (fs.map CustomFunction.toNode)) = some fs := by
  change (fs.map CustomFunction.toNode).mapM CustomFunction.ofNode? = some fs
  induction fs with
  | nil => rfl
  | cons f fs ih =>
    rw [List.map_cons, List.mapM_cons, CustomFunction.ofNode?_toNode, ih]
    rfl

/-- Settings are found in their record, if the limit of steps is one that a file can hold. -/
theorem ofNode?_toNode (h : settings.maxSteps < stepsBound) : ofNode? settings.toNode = some settings := by
  have hparts : settings.toNode.record? partNames =
      some [some (.array (settings.functions.map CustomFunction.toNode)), some (.ofNatural settings.maxSteps)] :=
    rfl
  unfold ofNode?
  rw [hparts]
  simp only [Option.bind_eq_bind, Option.bind_some, partOr, functionsOf?_toNode, natural?_ofNatural h]
  rfl

/-- The text of a settings file is JSON, it holds the settings that it was made of, and settings that were
saved to a file are loaded from it. -/
theorem load_store {σ : Type} {disk : Disk (StateM σ)} {path : String} (hdisk : disk.Recalls path)
    (h : settings.maxSteps < stepsBound) :
    IsText settings.toNode settings.fileText ∧ ofFileText? settings.fileText = some settings ∧
      ∀ s s', ((SettingsStore.file disk path).save settings).run.run s = (.ok (), s') →
        (SettingsStore.file disk path).load.run.run s' = (.ok settings, s') := by
  have htext : ofFileText? settings.fileText = some settings := by
    rw [ofFileText?, fileText, Node.read?_pretty settings.legible_toNode]
    exact ofNode?_toNode h
  refine ⟨Node.isText_pretty settings.legible_toNode, htext, ?_⟩
  intro s s' hsave
  obtain ⟨-, t, -, hwrite⟩ := exists_of_run_bind (run_of_run_adapt hsave)
  have hread := hdisk _ _ _ hwrite
  change (Settings.ofFile path <$> (disk.read path).run).run s' = _
  rw [StateT.run_map, hread]
  change (ofFile path (.ok settings.fileText), s') = (.ok settings, s')
  rw [ofFile]
  simp only [htext]

/-- Quotes, a line end and a control character in code, and the greatest limit of steps: saved to an empty
disk, and loaded from it. -/
theorem load_store_quoted :
    let settings : Settings := ⟨[⟨"quoted", "x => \"\\\n\x01\""⟩], 2 ^ 64 - 1⟩
    let store := SettingsStore.file Disk.inMemory "settings.json"
    settings.maxSteps < stepsBound ∧ ∃ s', (store.save settings).run.run (.folder []) = (.ok (), s') ∧
      store.load.run.run s' = (.ok settings, s') := by
  intro settings store
  have hlt : settings.maxSteps < stepsBound := by decide
  have hway : (FileTree.folder [] : FileTree ByteArray).way "settings.json" = .ok ["settings.json"] := by
    rw [FileTree.way, slashParts_of_not_mem (by decide)]
    rfl
  have hwrite : (FileTree.folder []).write "settings.json" settings.fileText.toUTF8 =
      .ok (.folder [("settings.json", .file settings.fileText.toUTF8)]) := by
    rw [FileTree.write, hway]
    rfl
  have hsave : (store.save settings).run.run (.folder []) =
      (.ok (), .folder [("settings.json", .file settings.fileText.toUTF8)]) :=
    run_adapt (SettingsError.io "settings.json") (write_inMemory hwrite)
  exact ⟨hlt, _, hsave, (load_store (recalls_inMemory "settings.json") hlt).2.2 _ _ hsave⟩

end Settings

end LiveNotes
