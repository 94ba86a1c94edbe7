import LiveNotes.Command.Basic
import LiveNotes.Proofs.Files.Disk
import LiveNotes.Proofs.Query.RoundTrip
import LiveNotes.Proofs.Query.SavedFunctions

/-!
The functions of a store, after any number of them were added and removed. A function is looked at once,
when it is added, and saved in another form than it was looked at: without the blanks around its code.

* `SettingsStore.Faithful`: a store that gives back what was saved;
* `FunctionCall.apply_ok`, `Sound.step`: what one call does, and what it preserves;
* `Sound.run`, `functions_callable`: the same for every sequence of calls on a store.
-/

namespace LiveNotes

open Text

/-! ### Settings -/

namespace Settings

variable {settings settings' : Settings} {f : CustomFunction} {name : String}

theorem function?_eq_none_iff : settings.function? name = none ↔ name ∉ settings.names := by
  rw [function?, List.find?_eq_none, names]
  simp

theorem names_append (settings : Settings) (f : CustomFunction) :
    names { settings with functions := settings.functions ++ [f] } = settings.names ++ [f.name] :=
  List.map_append

/-- A function is added at the end, if its name is not taken. -/
theorem add_eq_ok_iff : settings.add f = .ok settings' ↔
    f.name ∉ settings.names ∧ settings' = { settings with functions := settings.functions ++ [f] } := by
  unfold add save?
  rw [← function?_eq_none_iff]
  cases h : settings.function? f.name with
  | none => simp [eq_comm]
  | some g => simp

/-- What is left when a function is taken was there before, in the same order. -/
theorem functions_sublist_of_take (h : settings.take name = .ok (f, settings')) :
    settings'.functions.Sublist settings.functions := by
  unfold take remove? at h
  split at h
  · next found hfound =>
    split at hfound
    · cases hfound
    · cases hfound
      cases h
      exact List.eraseP_sublist
  · cases h

end Settings

/-! ### Calls on a store -/

/-- A call that changes the functions of a store. -/
inductive FunctionCall where
  | add (name code : String)
  | remove (name : String)

/-- A store that gives what was saved last; `stored` tells what that is. -/
structure SettingsStore.Faithful {σ : Type} (store : SettingsStore (StateM σ)) (stored : σ → Settings) :
    Prop where
  load : ∀ s, store.load.run.run s = (.ok (stored s), s)
  save : ∀ s settings, ∃ s', (store.save settings).run.run s = (.ok (), s') ∧ stored s' = settings

namespace FunctionCall

variable {σ : Type}

/-- The command of a call. -/
def command (store : SettingsStore (StateM σ)) : FunctionCall → ExceptT CommandError (StateM σ) Unit
  | .add name code => Command.addFunction store name code
  | .remove name => do
    let _ ← Command.removeFunction store name

/-- What a call gives, and the state that it leaves. -/
def run (store : SettingsStore (StateM σ)) (call : FunctionCall) (s : σ) :
    Except CommandError Unit × σ := (call.command store).run.run s

/-- What a call does to the settings. -/
def apply (settings : Settings) : FunctionCall → Except FunctionError Settings
  | .add name code => CustomFunction.checked name code >>= settings.add
  | .remove name => (settings.take name).map (·.2)

end FunctionCall

/-- The state that calls leave, one after the other. -/
def afterCalls {σ : Type} (store : SettingsStore (StateM σ)) (calls : List FunctionCall) (s : σ) : σ :=
  calls.foldl (fun s call => (call.run store s).2) s

section Store

variable {σ α : Type}

theorem run_ofCheck (x : Except FunctionError α) (s : σ) :
    (Command.ofCheck (m := StateM σ) x).run.run s = (x.mapError .function, s) := rfl

variable {store : SettingsStore (StateM σ)} {stored : σ → Settings} (hstore : store.Faithful stored)
include hstore

/-- A call fails and leaves the state as it was, or it does to the settings what it should. -/
theorem FunctionCall.run_cases (call : FunctionCall) (s : σ) :
    (∃ e, call.run store s = (.error e, s)) ∨
      ∃ s', call.run store s = (.ok (), s') ∧ call.apply (stored s) = .ok (stored s') := by
  have hload : (Command.loadStored store).run.run s = (.ok (stored s), s) :=
    run_adapt CommandError.settings (hstore.load s)
  have hsave (settings : Settings) :
      ∃ s', (Command.saveStored store settings).run.run s = (.ok (), s') ∧ stored s' = settings := by
    obtain ⟨s', hs', hstored⟩ := hstore.save s settings
    exact ⟨s', run_adapt CommandError.settings hs', hstored⟩
  cases call with
  | add name code =>
    unfold run command apply Command.addFunction
    dsimp only
    cases hf : CustomFunction.checked name code with
    | error e => exact .inl ⟨_, run_bind_error (run_ofCheck _ s)⟩
    | ok f =>
      rw [run_bind_ok (run_ofCheck (.ok f) s), run_bind_ok hload]
      cases hadd : (stored s).add f with
      | error e => exact .inl ⟨_, run_bind_error (run_ofCheck _ s)⟩
      | ok settings =>
        rw [run_bind_ok (run_ofCheck (.ok settings) s)]
        obtain ⟨s', hs', hstored⟩ := hsave settings
        exact .inr ⟨s', hs', hadd.trans (congrArg _ hstored.symm)⟩
  | remove name =>
    unfold run command apply
    dsimp only
    cases htake : (stored s).take name with
    | error e =>
      have hremoved : (Command.removeFunction store name).run.run s = (.error (.function e), s) := by
        unfold Command.removeFunction
        rw [run_bind_ok hload, htake]
        exact run_bind_error (run_ofCheck _ s)
      exact .inl ⟨_, run_bind_error hremoved⟩
    | ok found =>
      obtain ⟨s', hs', hstored⟩ := hsave found.2
      have hremoved : (Command.removeFunction store name).run.run s = (.ok found.1, s') := by
        unfold Command.removeFunction
        rw [run_bind_ok hload, htake, run_bind_ok (run_ofCheck (.ok found) s)]
        exact run_bind_ok hs'
      exact .inr ⟨s', run_bind_ok hremoved, congrArg _ hstored.symm⟩

end Store

/-! ### What every call preserves -/

/-- The functions have distinct names that a query can call, and each of them is, without the blanks
around it, code that was given under its name and compiles. -/
structure Sound (calls : List FunctionCall) (settings : Settings) : Prop where
  nodup : settings.names.Nodup
  custom : ∀ f ∈ settings.functions, isCustomName f.name = true
  given : ∀ f ∈ settings.functions, ∃ code g, .add f.name code ∈ calls ∧ f.code = trimmed code ∧
    Script.compile code = .ok g

theorem Sound.default : Sound [] .default := ⟨List.nodup_nil, nofun, nofun⟩

variable {calls calls' : List FunctionCall} {settings settings' : Settings} {call : FunctionCall}

theorem Sound.mono (h : Sound calls settings) (hc : calls ⊆ calls') : Sound calls' settings where
  nodup := h.nodup
  custom := h.custom
  given f hf := by
    obtain ⟨code, g, hm, h⟩ := h.given f hf
    exact ⟨code, g, hc hm, h⟩

theorem checked_eq_ok {name code : String} {f : CustomFunction}
    (h : CustomFunction.checked name code = .ok f) :
    isCustomName name = true ∧ f = ⟨name, trimmed code⟩ ∧ ∃ g, Script.compile code = .ok g := by
  unfold CustomFunction.checked at h
  split at h
  · next hn =>
    split at h
    · next g hg =>
      cases h
      exact ⟨hn, rfl, g, hg⟩
    · cases h
  · cases h

/-- A call that does something to sound settings leaves them sound. -/
theorem Sound.step (h : Sound calls settings) (ha : call.apply settings = .ok settings') :
    Sound (calls ++ [call]) settings' := by
  have hold := h.mono (List.subset_append_left calls [call])
  cases call with
  | add name code =>
    unfold FunctionCall.apply at ha
    dsimp only at ha
    cases hf : CustomFunction.checked name code with
    | error e =>
      rw [hf] at ha
      cases ha
    | ok f =>
      rw [hf] at ha
      obtain ⟨hname, rfl, g, hg⟩ := checked_eq_ok hf
      obtain ⟨hnew, rfl⟩ := Settings.add_eq_ok_iff.1 ha
      refine ⟨?_, ?_, ?_⟩
      · rw [Settings.names_append, List.nodup_append]
        refine ⟨hold.nodup, List.nodup_singleton name, ?_⟩
        rintro other ho _ hn rfl
        rw [List.mem_singleton.1 hn] at ho
        exact hnew ho
      · rw [List.forall_mem_append]
        exact ⟨hold.custom, by simpa using hname⟩
      · rw [List.forall_mem_append]
        refine ⟨hold.given, ?_⟩
        intro f hf
        cases List.mem_singleton.1 hf
        exact ⟨code, g, by simp, rfl, hg⟩
  | remove name =>
    unfold FunctionCall.apply at ha
    dsimp only at ha
    cases htake : settings.take name with
    | error e =>
      rw [htake] at ha
      cases ha
    | ok found =>
      rw [htake] at ha
      cases ha
      have hsub := Settings.functions_sublist_of_take htake
      refine ⟨?_, ?_, ?_⟩
      · exact hold.nodup.sublist (hsub.map _)
      · exact fun f hf => hold.custom f (hsub.subset hf)
      · exact fun f hf => hold.given f (hsub.subset hf)

section Run

variable {σ : Type} {store : SettingsStore (StateM σ)} {stored : σ → Settings}
  (hstore : store.Faithful stored)
include hstore

/-- The settings are sound after any calls, whether they succeed or not. -/
theorem Sound.run {s : σ} (h : Sound calls (stored s)) (more : List FunctionCall) :
    Sound (calls ++ more) (stored (afterCalls store more s)) := by
  induction more generalizing calls s with
  | nil => rwa [List.append_nil]
  | cons call more ih =>
    have hstep : Sound (calls ++ [call]) (stored (call.run store s).2) := by
      rcases call.run_cases hstore s with ⟨e, hr⟩ | ⟨s', hr, ha⟩
      · rw [hr]
        exact h.mono (List.subset_append_left _ _)
      · rw [hr]
        exact h.step ha
    rw [List.append_cons]
    exact ih hstep

end Run

/-! ### Calls of saved functions -/

/-- A call of a saved function is a query of that function, whatever stands in the parentheses. -/
theorem Sound.parseQuery (h : Sound calls settings) {f : CustomFunction} (hf : f ∈ settings.functions)
    (body : String) : parseQuery settings.names (f.name ++ "(" ++ body ++ ")") =
      .ok (.ofArguments (.custom f.name) (splitList body.toList)) := by
  obtain ⟨hname, hbuiltin⟩ := Bool.and_eq_true_iff.1 (h.custom f hf)
  have htext : (f.name ++ "(" ++ body ++ ")").toList =
      f.name.toList ++ '(' :: (body.toList ++ [')']) := by
    simp [String.toList_append]
  have hcall : splitCall? (f.name ++ "(" ++ body ++ ")").toList = some (f.name.toList, body.toList) :=
    htext ▸ splitCall?_written hname _
  have hknown : settings.names.contains f.name = true :=
    List.contains_iff_mem.2 (List.mem_map_of_mem hf)
  have hkind : functionNamed? settings.names f.name = some (.custom f.name) := by
    unfold functionNamed?
    rw [Option.isNone_iff_eq_none.1 hbuiltin]
    dsimp only
    rw [if_pos hknown]
  refine parseQuery_eq_ok_iff.2 ⟨_, _, .custom f.name, _, hcall, ?_, ?_, rfl⟩
  · rw [String.ofList_toList, hkind]
  · rw [parseArguments_list rfl, String.ofList_toList]

/-- Whatever was added to a store and removed from it since nothing was saved there, each call
succeeding or failing: the names are distinct, each of them is one of the query grammar that is not
built in, so that it calls its function with any arguments; and the code of each compiles to the
function that was given under the name. A further call that fails leaves the settings as they are. -/
theorem functions_callable {σ : Type} {store : SettingsStore (StateM σ)} {stored : σ → Settings}
    (hstore : store.Faithful stored) {s : σ} (hs : stored s = .default) (calls : List FunctionCall) :
    (stored (afterCalls store calls s)).names.Nodup ∧
      (∀ f ∈ (stored (afterCalls store calls s)).functions,
        isFunctionName f.name.toList = true ∧ FunctionKind.builtin? f.name = none ∧
        (∀ body, parseQuery (stored (afterCalls store calls s)).names (f.name ++ "(" ++ body ++ ")") =
          .ok (.ofArguments (.custom f.name) (splitList body.toList))) ∧
        ∃ code g, .add f.name code ∈ calls ∧ f.code = trimmed code ∧
          Script.compile code = .ok g ∧ Script.compile f.code = .ok g) ∧
      ∀ (call : FunctionCall) e s', call.run store (afterCalls store calls s) = (.error e, s') →
        stored s' = stored (afterCalls store calls s) := by
  have hstart : Sound [] (stored s) := by
    rw [hs]
    exact Sound.default
  have hsound : Sound calls (stored (afterCalls store calls s)) := hstart.run hstore calls
  refine ⟨hsound.nodup, fun f hf => ?_, fun call e s' hr => ?_⟩
  · obtain ⟨hname, hbuiltin⟩ := Bool.and_eq_true_iff.1 (hsound.custom f hf)
    obtain ⟨code, g, hm, hcode, hg⟩ := hsound.given f hf
    refine ⟨hname, Option.isNone_iff_eq_none.1 hbuiltin, hsound.parseQuery hf, code, g, hm, hcode, hg, ?_⟩
    rw [hcode]
    exact compile_trimmed hg
  · rcases call.run_cases hstore (afterCalls store calls s) with ⟨e', h⟩ | ⟨s'', h, -⟩
    · rw [h] at hr
      cases hr
      rfl
    · rw [h] at hr
      cases hr

theorem faithful_inMemory : SettingsStore.inMemory.Faithful id where
  load _ := rfl
  save _ settings := ⟨settings, rfl, rfl⟩

/-- Code with a blank before it. -/
def identityCode : String := .ofList (Script.spaced [Script.Word.a, .symbol .arrow, Script.Word.a])

/-- In memory: a function is added, a built-in one is not, and one that is not there is not removed. -/
theorem functions_callable_same :
    (afterCalls .inMemory [.add "same" identityCode, .add "sum" identityCode, .remove "none"]
      .default).names = ["same"] ∧
    parseQuery ["same"] "same(x, (y)" = .ok (.ofArguments (.custom "same") (splitList "x, (y".toList)) := by
  let saved : Settings := ⟨[⟨"same", trimmed identityCode⟩], Script.defaultLimit⟩
  have hcheck : CustomFunction.checked "same" identityCode = .ok ⟨"same", trimmed identityCode⟩ := by
    unfold CustomFunction.checked identityCode
    rw [Script.compile_identity]
    rfl
  have hadd : (FunctionCall.add "same" identityCode).run .inMemory .default = (.ok (), saved) := by
    unfold FunctionCall.run FunctionCall.command Command.addFunction
    dsimp only
    rw [hcheck]
    rfl
  have hbuiltin : (FunctionCall.add "sum" identityCode).run .inMemory saved =
      (.error (.function (.invalidName "sum")), saved) := by rfl
  have hunknown : (FunctionCall.remove "none").run .inMemory saved =
      (.error (.function (.unknown "none")), saved) := by rfl
  have hafter : afterCalls .inMemory [.add "same" identityCode, .add "sum" identityCode, .remove "none"]
      .default = saved := by
    unfold afterCalls
    rw [List.foldl_cons, hadd, List.foldl_cons, hbuiltin, List.foldl_cons, hunknown]
    rfl
  have hall := functions_callable faithful_inMemory (s := .default) rfl
    [.add "same" identityCode, .add "sum" identityCode, .remove "none"]
  rw [hafter] at hall ⊢
  exact ⟨rfl, (hall.2.1 _ List.mem_cons_self).2.2.1 "x, (y"⟩

end LiveNotes
