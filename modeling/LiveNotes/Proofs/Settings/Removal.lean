import LiveNotes.Settings.Storage
import LiveNotes.Proofs.Json.RoundTrip
import LiveNotes.Proofs.Settings.Functions

/-!
Removing a function takes the first one of its name away, and a lookup finds the first one that is left.
So a removed function is gone if it was there once. Saving never gives a name a second function, but
nothing keeps a settings file from holding two.

* `SettingsCall`, `Settings.after`: calls on settings, and what they leave;
* `count_remove?`, `function?_eq_none_iff_of_remove?`: what a removal does to the functions of a name;
* `count_apply_le`, `count_after_le`: no call, and so no calls, give a name a second function;
* `function?_eq_none_of_remove?`: a removed function is gone if the file held no second one of its name;
* `exists_function?_of_remove?`: one of two that the file held under a name is still there.
-/

namespace LiveNotes

/-- A call that changes settings. -/
inductive SettingsCall where
  | save (name code : String)
  | remove (name : String)

/-- The settings behind a call; one that fails leaves them as they are. -/
def SettingsCall.apply (settings : Settings) : SettingsCall → Settings
  | .save name code => (settings.save? name code).getD settings
  | .remove name => ((settings.remove? name).map (·.2)).getD settings

namespace Settings

/-- The settings behind calls, one after the other. -/
def after (settings : Settings) (calls : List SettingsCall) : Settings :=
  calls.foldl SettingsCall.apply settings

variable {settings rest : Settings} {name : String} {f : CustomFunction}

/-! ### Functions of one name -/

/-- The first function of the name is taken away. -/
theorem names_remove? (h : settings.remove? name = some (f, rest)) :
    name ∈ settings.names ∧ rest.names = settings.names.erase name := by
  unfold remove? at h
  split at h
  · cases h
  · next g hg =>
    cases h
    refine ⟨?_, ?_⟩
    · by_contra hn
      rw [function?_eq_none_iff.2 hn] at hg
      cases hg
    · rw [names, names, List.erase_eq_eraseP', List.eraseP_map]
      rfl

theorem count_remove? (h : settings.remove? name = some (f, rest)) :
    settings.names.count name = rest.names.count name + 1 := by
  obtain ⟨hm, hn⟩ := names_remove? h
  have hpos := List.count_pos_iff.2 hm
  rw [hn, List.count_erase_self]
  omega

/-- A removed function is gone if and only if there was no second one of its name. -/
theorem function?_eq_none_iff_of_remove? (h : settings.remove? name = some (f, rest)) :
    rest.function? name = none ↔ settings.names.count name = 1 := by
  have := count_remove? h
  rw [function?_eq_none_iff, ← List.count_eq_zero]
  omega

/-! ### What calls leave -/

/-- No call gives a name a second function. -/
theorem count_apply_le (settings : Settings) (call : SettingsCall) (name : String) :
    (call.apply settings).names.count name ≤ max 1 (settings.names.count name) := by
  cases call with
  | save other code =>
    unfold SettingsCall.apply save?
    dsimp only
    split
    · exact Nat.le_max_right _ _
    · next hnew =>
      rw [Option.getD_some, names_append, List.count_append]
      by_cases hn : other = name
      · have : settings.names.count name = 0 :=
          List.count_eq_zero.2 (hn ▸ function?_eq_none_iff.1 hnew)
        simp [hn, this]
      · simp [hn]
  | remove other =>
    unfold SettingsCall.apply
    dsimp only
    cases h : settings.remove? other with
    | none => exact Nat.le_max_right _ _
    | some found =>
      have hsub : found.2.names.Sublist settings.names := by
        rw [(names_remove? h).2]
        exact List.erase_sublist
      exact (hsub.count_le name).trans (Nat.le_max_right _ _)

theorem count_after_le (settings : Settings) (calls : List SettingsCall) (name : String) :
    (settings.after calls).names.count name ≤ max 1 (settings.names.count name) := by
  induction calls generalizing settings with
  | nil => exact Nat.le_max_right _ _
  | cons call calls ih =>
    have hstep := count_apply_le settings call name
    have hrun : (settings.after (call :: calls)).names.count name ≤
        max 1 ((call.apply settings).names.count name) := ih _
    omega

/-- A function that is removed after any calls is gone, if the file that the settings come from held no
second one of its name. -/
theorem function?_eq_none_of_remove? {path : String} {file : Except FileError String}
    {calls : List SettingsCall} (hrun : (ofFile path file).map (·.after calls) = .ok settings)
    (hfile : ∀ loaded, ofFile path file = .ok loaded → loaded.names.count name ≤ 1)
    (h : settings.remove? name = some (f, rest)) : rest.function? name = none ∧ name ∉ rest.names := by
  cases hload : ofFile path file with
  | error e =>
    rw [hload] at hrun
    cases hrun
  | ok loaded =>
    rw [hload] at hrun
    obtain rfl : loaded.after calls = settings := Except.ok.inj hrun
    have hbefore := hfile loaded hload
    have hafter := count_after_le loaded calls name
    have hcount := count_remove? h
    have hgone : rest.function? name = none := by
      rw [function?_eq_none_iff_of_remove? h]
      omega
    exact ⟨hgone, function?_eq_none_iff.1 hgone⟩

/-! ### Settings files -/

/-- A function as a value that is written as JSON. -/
def functionValue (f : CustomFunction) : Value :=
  .object [("name", .string f.name), ("code", .string f.code)]

/-- The text of a settings file that holds functions and leaves the rest out. -/
def functionsText (functions : List CustomFunction) : String :=
  (Value.object [("customFunctions", .array (functions.map functionValue))]).toJson

theorem ofNode?_functionValue (f : CustomFunction) :
    CustomFunction.ofNode? (functionValue f).tree = some f := rfl

theorem functionsOf?_functionValues (functions : List CustomFunction) :
    functionsOf? (.array (functions.map fun f => (functionValue f).tree)) = some functions := by
  change (functions.map fun f => (functionValue f).tree).mapM CustomFunction.ofNode? = some functions
  induction functions with
  | nil => rfl
  | cons f functions ih =>
    rw [List.map_cons, List.mapM_cons, ofNode?_functionValue, ih]
    rfl

/-- Any functions can stand in a settings file. -/
theorem ofFile_functionsText (path : String) (functions : List CustomFunction) :
    ofFile path (.ok (functionsText functions)) = .ok ⟨functions, default.maxSteps⟩ := by
  let v : Value := .object [("customFunctions", .array (functions.map functionValue))]
  have hitems : Value.itemsFloatFree (functions.map functionValue) = true := by
    rw [Value.itemsFloatFree_iff]
    simp [functionValue, Value.floatFree, Value.entriesFloatFree]
  have hfree : v.floatFree = true := by
    simp [v, Value.floatFree, Value.entriesFloatFree, hitems]
  have hread : Json.Node.read? (functionsText functions) = some v.tree :=
    (Json.isText_of_writes (Value.writes_toJson v hfree)).read?
  have htree : v.tree =
      .object [("customFunctions", .array (functions.map fun f => (functionValue f).tree))] := by
    simp [v, Value.tree, Value.entriesTree, Value.itemsTree_eq, Function.comp_def]
  have hsettings : ofFileText? (functionsText functions) = some ⟨functions, default.maxSteps⟩ := by
    rw [ofFileText?, hread, htree]
    change (do
      return ⟨← partOr default.functions functionsOf? (some _), default.maxSteps⟩ : Option Settings) = _
    rw [partOr, functionsOf?_functionValues]
    rfl
  unfold ofFile
  dsimp only
  rw [hsettings]

/-- A file with two functions. The name of the one is saved again, which fails, and the other one is
removed and saved with other code, before the first one is removed. -/
theorem function?_eq_none_of_remove?_once :
    let functions : List CustomFunction := [⟨"a", "() => 1"⟩, ⟨"b", "() => 2"⟩]
    let calls : List SettingsCall := [.save "a" "() => 3", .remove "b", .save "b" "() => 4"]
    ∃ settings f rest,
      (ofFile "settings.json" (.ok (functionsText functions))).map (·.after calls) = .ok settings ∧
      settings.remove? "a" = some (f, rest) ∧ f.code = "() => 1" ∧
      rest.function? "a" = none ∧ "a" ∉ rest.names := by
  intro functions calls
  have hload := ofFile_functionsText "settings.json" functions
  have hrun : (ofFile "settings.json" (.ok (functionsText functions))).map (·.after calls) =
      .ok (after ⟨functions, default.maxSteps⟩ calls) := by
    rw [hload]
    rfl
  have hfile : ∀ loaded, ofFile "settings.json" (.ok (functionsText functions)) = .ok loaded →
      loaded.names.count "a" ≤ 1 := by
    intro loaded h
    rw [hload] at h
    cases h
    decide
  have hremove : (after ⟨functions, default.maxSteps⟩ calls).remove? "a" =
      some (⟨"a", "() => 1"⟩, ⟨[⟨"b", "() => 4"⟩], default.maxSteps⟩) := rfl
  exact ⟨_, _, _, hrun, hremove, rfl, function?_eq_none_of_remove? hrun hfile hremove⟩

/-- Two functions under one name, and another one. -/
def twiceSaved : List CustomFunction := [⟨"a", "() => 1"⟩, ⟨"b", "() => 2"⟩, ⟨"a", "() => 3"⟩]

/-- A file is loaded that holds two functions of a name. When the function of that name is removed, there
still is one. -/
theorem exists_function?_of_remove? : ∃ settings f rest,
    ofFile "settings.json" (.ok (functionsText twiceSaved)) = .ok settings ∧
      settings.remove? "a" = some (f, rest) ∧
      rest.function? "a" = some ⟨"a", "() => 3"⟩ ∧ "a" ∈ rest.names :=
  ⟨_, _, _, ofFile_functionsText _ _, rfl, rfl, by decide⟩

end Settings

end LiveNotes
