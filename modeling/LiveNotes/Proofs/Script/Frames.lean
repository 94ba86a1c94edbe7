import LiveNotes.Proofs.Script.Confinement

/-!
The frames around a piece of code. Code reads the variables of every frame, but an expression changes
none of them: a declaration sets a variable of the innermost frame, and a function that is called
takes its own frame away again, however it ends.

* `Machine.Binds`: some names have values;
* `Keeps`, `Settles`: from a machine on which some names have values, a run leaves all frames as they
  are, or all but the innermost, and ends in a good error if in any;
* `keeps_operations`: the operations of a run keep the frames, and so does every operation of the
  language; no error of theirs is about a variable.
-/

namespace LiveNotes.Script

/-! ### Names that have values -/

/-- Every one of the names has a value. -/
def Machine.Binds (m : Machine) (names : List String) : Prop :=
  ∀ name ∈ names, (m.lookup? name).isSome = true

namespace Machine.Binds

variable {m : Machine} {names : List String}

theorem of_frames {m' : Machine} (h : m.Binds names) (hf : m'.frames = m.frames) :
    m'.Binds names := by
  intro name hn
  have := h name hn
  unfold lookup? at *
  rwa [hf]

/-- A variable that is set in the innermost frame has a value, and so have all that had one. -/
theorem declare {frame : Frame} {outer : List Frame} {steps : Nat}
    (h : Machine.Binds ⟨frame :: outer, steps⟩ names) (name : String) (v : Value) :
    Machine.Binds ⟨Entries.insert frame name v :: outer, steps⟩ (name :: names) := by
  intro other hn
  unfold lookup?
  rw [List.findSome?_cons, Entries.get?_insert]
  by_cases he : name = other
  · rw [if_pos he]
    rfl
  · rw [if_neg he]
    have := h other ((List.mem_cons.1 hn).resolve_left (Ne.symm he))
    unfold lookup? at this
    rwa [List.findSome?_cons] at this

/-- In the frame of a call every parameter has a value, whatever arguments there are. -/
theorem bindParams (h : m.Binds names) (params : List String) (args : List Value) :
    Machine.Binds { m with frames := bindParams params args :: m.frames } (params ++ names) := by
  intro name hn
  unfold lookup?
  rw [List.findSome?_cons]
  cases hg : Entries.get? (Script.bindParams params args) name with
  | some v => rfl
  | none =>
    rcases List.mem_append.1 hn with hp | hn
    · have := isSome_get?_bindParams hp args
      rw [hg] at this
      cases this
    · exact h name hn

end Machine.Binds

/-! ### Runs that keep the frames -/

/-- A run that ended with certain frames, and in a good error if in any. -/
def Ends {α : Type} (frames : List Frame) (good : ScriptError → Prop) : RunResult α → Prop
  | .ok _ m => m.frames = frames
  | .error e m => m.frames = frames ∧ good e

/-- Where some names have values, a run leaves the frames as they are and ends in no bad error. -/
def Keeps {α : Type} (names : List String) (good : ScriptError → Prop) (r : Run α) : Prop :=
  ∀ m, m.Binds names → Ends m.frames good (r m)

/-- The same of a run inside a call, which may set variables of the innermost frame. -/
def Settles {α : Type} (names : List String) (good : ScriptError → Prop) (r : Run α) : Prop :=
  ∀ frame outer steps, Machine.Binds ⟨frame :: outer, steps⟩ names →
    ∃ frame', Ends (frame' :: outer) good (r ⟨frame :: outer, steps⟩)

/-- No error is bad but that of a variable without a value. -/
def Tolerant (good : ScriptError → Prop) : Prop :=
  ∀ e, (∀ name, e ≠ .undefinedVariable name) → good e

section Rules

variable {α β : Type} {names inner : List String} {good : ScriptError → Prop}

theorem keeps_pure (a : α) : Keeps names good (pure a : Run α) := fun _ _ => rfl

theorem keeps_throw {e : ScriptError} (h : good e) : Keeps names good (throw e : Run α) :=
  fun _ _ => ⟨rfl, h⟩

theorem keeps_lookup? (name : String) : Keeps names good (lookup? name) := fun _ _ => rfl

theorem Keeps.bind {r : Run α} {f : α → Run β} (hr : Keeps names good r)
    (hf : ∀ a, Keeps names good (f a)) : Keeps names good (r >>= f) := by
  intro m hm
  have h := hr m hm
  cases hrm : r m with
  | error e m' =>
    rw [hrm] at h
    rw [bind_run_error hrm]
    exact h
  | ok a m' =>
    rw [hrm] at h
    change m'.frames = m.frames at h
    rw [bind_run_ok hrm, ← h]
    exact hf a m' (hm.of_frames h)

theorem Keeps.ite {p : Prop} [Decidable p] {r s : Run α} (hr : Keeps names good r)
    (hs : Keeps names good s) : Keeps names good (if p then r else s) := by
  split
  · exact hr
  · exact hs

theorem Keeps.settles {r : Run α} (h : Keeps names good r) : Settles names good r :=
  fun frame _ _ hm => ⟨frame, h _ hm⟩

/-- A run that keeps the frames, before one that may set variables. -/
theorem Keeps.bind_settles {r : Run α} {f : α → Run β} (hr : Keeps names good r)
    (hf : ∀ a, Settles names good (f a)) : Settles names good (r >>= f) := by
  intro frame outer steps hm
  have h := hr _ hm
  cases hrm : r ⟨frame :: outer, steps⟩ with
  | error e m' =>
    rw [hrm] at h
    rw [bind_run_error hrm]
    exact ⟨frame, h⟩
  | ok a m' =>
    rw [hrm] at h
    obtain ⟨frames, steps'⟩ := m'
    change frames = frame :: outer at h
    subst h
    rw [bind_run_ok hrm]
    exact hf a frame outer steps' (hm.of_frames rfl)

/-- Behind a declaration there is one more name with a value. -/
theorem Settles.declare {name : String} {f : Unit → Run β} (h : Settles (name :: names) good (f ()))
    (v : Value) : Settles names good (declare name v >>= f) :=
  fun frame outer steps hm => h (Entries.insert frame name v) outer steps (hm.declare name v)

/-- The frame of a call goes with the call, with all that was set in it. -/
theorem Settles.within {r : Run α} (h : Settles inner good r) {frame : Frame}
    (hb : ∀ m : Machine, m.Binds names →
      Machine.Binds { m with frames := frame :: m.frames } inner) :
    Keeps names good (within frame r) := by
  intro m hm
  obtain ⟨frame', h⟩ := h frame m.frames m.steps (hb m hm)
  cases hr : r { m with frames := frame :: m.frames } with
  | ok a m' =>
    rw [hr] at h
    rw [within_run_ok hr]
    exact congrArg List.tail h
  | error e m' =>
    rw [hr] at h
    rw [within_run_error hr]
    exact ⟨congrArg List.tail h.1, h.2⟩

end Rules

/-- An error of an operation is not about a variable, so every operation of the language keeps the
frames. -/
theorem keeps_operations {names : List String} {good : ScriptError → Prop} {limit : Nat}
    (hg : Tolerant good) : RunRelation (fun r _ => Keeps names good r) limit limit where
  gives := keeps_pure
  fails he := keeps_throw (hg _ he.2)
  charge cost m _ := by
    simp only [charge]
    split
    · exact ⟨rfl, hg _ (by simp)⟩
    · exact rfl
  lookup? := keeps_lookup?
  bind := Keeps.bind

/-- A call keeps the frames around it if its body settles in one with the parameters. -/
theorem keeps_callBody {names : List String} {good : ScriptError → Prop} {limit : Nat}
    (hg : Tolerant good) {params : List String} {body : Run Value}
    (hb : Settles (params ++ names) good body) (args : List Value) :
    Keeps names good (callBody limit params body args) :=
  ((keeps_operations hg).charge 1).bind fun _ => hb.within fun _ hm => hm.bindParams params args

end LiveNotes.Script
