import LiveNotes.Proofs.Script.Relation

/-!
Code reads the frames of the calls in progress and changes none of them: whatever an expression does and
however it ends, it leaves the frames that it found. Of the machine it needs nothing else, as the steps
charged before it only bring the limit nearer. So code has an outcome of its own on the frames around it.

* `Alike`, `Agrees`, `AgreesInside`: the first of two runs exceeds its limit, or both end in the same way;
  all frames are left as they were, or all but the innermost;
* `agrees_code`: all code agrees with itself when its steps are not limited;
* `lookup?_bindParams`: what the body of a function reads;
* `framesLeft_eval`: what an expression, a call and the body of a function leave;
* `Steady`, `unlimited`: code that leaves the frames alone, and its outcome;
* `Steady.ending_eq`, `Steady.unlimited_bind`: the outcome is that under every limit that is not exceeded,
  and the outcome of a sequence is that of its parts.
-/

namespace LiveNotes.Script

/-! ### How a run ends -/

/-- What a run gives, without the machine that it leaves. -/
def ending {α : Type} : RunResult α → Except ScriptError α
  | .ok a _ => .ok a
  | .error e _ => .error e

/-- Whether a run ended for want of steps. -/
def outOfSteps {α : Type} : Except ScriptError α → Bool
  | .error (.stepLimitExceeded _) => true
  | _ => false

/-- The frames that a run leaves. -/
def framesLeft {α : Type} : RunResult α → List Frame
  | .ok _ m => m.frames
  | .error _ m => m.frames

/-- Two runs that end in the same way, unless the first one exceeds its limit; the frames are left by
both. -/
inductive Alike {α : Type} (frames : List Frame) (limit : Nat) : RunResult α → RunResult α → Prop where
  | exceeded (hl : limit < stepCap) (t : Nat) (x : RunResult α) :
    Alike frames limit (.error (.stepLimitExceeded limit) ⟨frames, t⟩) x
  | gave (a : α) (t t' : Nat) : Alike frames limit (.ok a ⟨frames, t⟩) (.ok a ⟨frames, t'⟩)
  | failed {e : ScriptError} (he : ∀ k, e ≠ .stepLimitExceeded k) (t t' : Nat) :
    Alike frames limit (.error e ⟨frames, t⟩) (.error e ⟨frames, t'⟩)

/-- From the same frames, whatever was charged before, two runs end in the same way, unless the first
one exceeds its limit; and the frames are left as they were. -/
def Agrees {α : Type} (limit : Nat) (r r' : Run α) : Prop :=
  ∀ frames t t', Alike frames limit (r ⟨frames, t⟩) (r' ⟨frames, t'⟩)

/-- The same of runs inside a call, which may set variables of the innermost frame. -/
def AgreesInside {α : Type} (limit : Nat) (r r' : Run α) : Prop :=
  ∀ frame outer t t', ∃ frame',
    Alike (frame' :: outer) limit (r ⟨frame :: outer, t⟩) (r' ⟨frame :: outer, t'⟩)

section Rules

variable {α β : Type} {limit : Nat} {frames : List Frame}

theorem Alike.framesLeft_eq {x x' : RunResult α} (h : Alike frames limit x x') :
    framesLeft x = frames := by
  cases h <;> rfl

/-- If the first run does not exceed its limit, the second one ends in the same way. -/
theorem Alike.ending_eq {x x' : RunResult α} (h : Alike frames limit x x')
    (hn : limit < stepCap → outOfSteps (ending x) = false) : ending x = ending x' := by
  cases h with
  | exceeded hl t => cases hn hl
  | gave a t t' => rfl
  | failed he t t' => rfl

theorem agrees_pure (a : α) : Agrees limit (pure a : Run α) (pure a) :=
  fun _ t t' => .gave a t t'

theorem agrees_throw {e : ScriptError} (he : ∀ k, e ≠ .stepLimitExceeded k) :
    Agrees limit (throw e : Run α) (throw e) :=
  fun _ t t' => .failed he t t'

/-- The counter does not exceed its cap. -/
theorem charge_stepCap (cost : Nat) (m : Machine) :
    charge stepCap cost m = .ok () { m with steps := min (m.steps + cost) stepCap } := by
  unfold charge
  dsimp only
  rw [if_neg (Nat.not_lt.2 (Nat.min_le_right _ _))]

theorem agrees_charge (cost : Nat) : Agrees limit (charge limit cost) (charge stepCap cost) := by
  intro frames t t'
  rw [charge_stepCap]
  unfold charge
  dsimp only
  split
  · next hl => exact .exceeded (Nat.lt_of_lt_of_le hl (Nat.min_le_right _ _)) _ _
  · exact .gave () _ _

theorem agrees_lookup? (name : String) : Agrees limit (lookup? name) (lookup? name) :=
  fun _ t t' => .gave _ t t'

theorem Agrees.bind {r r' : Run α} {f f' : α → Run β} (hr : Agrees limit r r')
    (hf : ∀ a, Agrees limit (f a) (f' a)) : Agrees limit (r >>= f) (r' >>= f') := by
  intro frames t t'
  have h := hr frames t t'
  generalize hx : r ⟨frames, t⟩ = x at h
  generalize hx' : r' ⟨frames, t'⟩ = x' at h
  cases h with
  | exceeded hl u =>
    rw [bind_run_error hx]
    exact .exceeded hl u _
  | gave a u u' =>
    rw [bind_run_ok hx, bind_run_ok hx']
    exact hf a frames u u'
  | failed he u u' =>
    rw [bind_run_error hx, bind_run_error hx']
    exact .failed he u u'

theorem Agrees.inside {r r' : Run α} (h : Agrees limit r r') : AgreesInside limit r r' :=
  fun frame outer t t' => ⟨frame, h (frame :: outer) t t'⟩

theorem Agrees.bind_inside {r r' : Run α} {f f' : α → Run β} (hr : Agrees limit r r')
    (hf : ∀ a, AgreesInside limit (f a) (f' a)) : AgreesInside limit (r >>= f) (r' >>= f') := by
  intro frame outer t t'
  have h := hr (frame :: outer) t t'
  generalize hx : r ⟨frame :: outer, t⟩ = x at h
  generalize hx' : r' ⟨frame :: outer, t'⟩ = x' at h
  cases h with
  | exceeded hl u =>
    rw [bind_run_error hx]
    exact ⟨frame, .exceeded hl u _⟩
  | gave a u u' =>
    rw [bind_run_ok hx, bind_run_ok hx']
    exact hf a frame outer u u'
  | failed he u u' =>
    rw [bind_run_error hx, bind_run_error hx']
    exact ⟨frame, .failed he u u'⟩

/-- A declaration reaches the innermost frame only. -/
theorem AgreesInside.declare {f f' : Unit → Run α} (name : String) (v : Value)
    (h : AgreesInside limit (f ()) (f' ())) :
    AgreesInside limit (declare name v >>= f) (declare name v >>= f') :=
  fun frame outer t t' => h (frame.insert name v) outer t t'

/-- The frame of a call goes with the call, with all that was set in it. -/
theorem AgreesInside.within {r r' : Run α} (frame : Frame) (h : AgreesInside limit r r') :
    Agrees limit (within frame r) (within frame r') := by
  intro frames t t'
  obtain ⟨frame', h⟩ := h frame frames t t'
  generalize hx : r ⟨frame :: frames, t⟩ = x at h
  generalize hx' : r' ⟨frame :: frames, t'⟩ = x' at h
  cases h with
  | exceeded hl u =>
    rw [within_run_error hx]
    exact .exceeded hl u _
  | gave a u u' =>
    rw [within_run_ok hx, within_run_ok hx']
    exact .gave a u u'
  | failed he u u' =>
    rw [within_run_error hx, within_run_error hx']
    exact .failed he u u'

/-- Every operation keeps this, so all code does. -/
theorem agrees_code (limit : Nat) :
    CodeRelation (Agrees limit) (AgreesInside limit) limit stepCap where
  gives := agrees_pure
  fails he := agrees_throw he.1
  charge := agrees_charge
  lookup? := agrees_lookup?
  bind := Agrees.bind
  undefined _ := agrees_throw (by simp)
  inside := Agrees.inside
  bind_inside := Agrees.bind_inside
  declare := AgreesInside.declare
  within := AgreesInside.within

end Rules

/-! ### Frames -/

/-- In the frame of a call every parameter has a value, whatever arguments there are. -/
theorem isSome_get?_bindParams {params : List String} {name : String} (hname : name ∈ params)
    (args : List Value) : ((bindParams params args).get? name).isSome = true := by
  have hlength : params.length ≤
      (args ++ List.replicate (params.length - args.length) Value.null).length := by
    rw [List.length_append, List.length_replicate]
    omega
  exact Entries.isSome_get?_ofList (by rwa [List.map_fst_zip hlength])

/-- A variable of the body of a function is a parameter, or what it is around the call. -/
theorem lookup?_bindParams (params : List String) (args : List Value) (m : Machine) (name : String) :
    Machine.lookup? { m with frames := bindParams params args :: m.frames } name =
      if name ∈ params then (bindParams params args).get? name else m.lookup? name := by
  unfold Machine.lookup?
  rw [List.findSome?_cons]
  cases hv : (bindParams params args).get? name with
  | some v =>
    have hmem := Entries.mem_of_mem_ofList (Entries.mem_of_get? hv)
    rw [if_pos (List.of_mem_zip hmem).1]
  | none =>
    have hname : name ∉ params := fun hname => by
      have := isSome_get?_bindParams hname args
      rw [hv] at this
      cases this
    rw [if_neg hname]

/-- However it ends, an expression leaves the frames as they were, and so does a call of a function. The
body of a function reads its parameters and the frames around its own, and leaves those as they were. -/
theorem framesLeft_eval (limit : Nat) :
    (∀ e m, framesLeft (eval limit e m) = m.frames) ∧
    (∀ f args m, framesLeft (call limit f args m) = m.frames) ∧
    (∀ params args (m : Machine) name,
      Machine.lookup? ⟨bindParams params args :: m.frames, m.steps⟩ name =
        if name ∈ params then (bindParams params args).get? name else m.lookup? name) ∧
    ∀ body frame outer steps, ∃ frame',
      framesLeft (perform limit body ⟨frame :: outer, steps⟩) = frame' :: outer := by
  refine ⟨fun e m => ?_, fun f args m => ?_, fun params args m name => ?_,
    fun body frame outer steps => ?_⟩
  · exact ((agrees_code limit).eval e m.frames m.steps m.steps).framesLeft_eq
  · exact ((agrees_code limit).call f args m.frames m.steps m.steps).framesLeft_eq
  · exact lookup?_bindParams params args m name
  · obtain ⟨frame', h⟩ := (agrees_code limit).perform body frame outer steps steps
    exact ⟨frame', h.framesLeft_eq⟩

/-! ### Outcomes -/

/-- What code gives on frames when its steps are not limited. -/
def unlimited {α : Type} (frames : List Frame) (code : Nat → Run α) : Except ScriptError α :=
  ending (code stepCap ⟨frames, 0⟩)

/-- Code that leaves the frames alone and depends on nothing else, its limit apart. -/
def Steady {α : Type} (code : Nat → Run α) : Prop := ∀ limit, Agrees limit (code limit) (code stepCap)

namespace Steady

variable {α β : Type} {code : Nat → Run α} (h : Steady code)
include h

/-- Without a limit, the steps charged before do not count. -/
theorem ending_eq_unlimited (frames : List Frame) (t : Nat) :
    ending (code stepCap ⟨frames, t⟩) = unlimited frames code :=
  (h stepCap frames t 0).ending_eq fun hl => absurd hl (Nat.lt_irrefl _)

/-- Under a limit that is not exceeded, code gives what it gives without one. -/
theorem ending_eq {limit : Nat} {frames : List Frame} {t : Nat}
    (hn : outOfSteps (ending (code limit ⟨frames, t⟩)) = false) :
    ending (code limit ⟨frames, t⟩) = unlimited frames code :=
  (h limit frames t 0).ending_eq fun _ => hn

/-- Of one piece of code behind another, the second one starts on the same frames. -/
theorem unlimited_bind {f : Nat → α → Run β} (hf : ∀ a, Steady fun limit => f limit a)
    (frames : List Frame) : unlimited frames (fun limit => code limit >>= f limit) =
      unlimited frames code >>= fun a => unlimited frames fun limit => f limit a := by
  have halike := h stepCap frames 0 1
  unfold unlimited
  generalize hx : code stepCap ⟨frames, 0⟩ = x at halike
  generalize code stepCap ⟨frames, 1⟩ = x' at halike
  cases halike with
  | exceeded hl => exact absurd hl (Nat.lt_irrefl _)
  | gave a t =>
    dsimp only
    rw [bind_run_ok hx]
    exact (hf a).ending_eq_unlimited frames t
  | failed he t =>
    dsimp only
    rw [bind_run_error hx]
    rfl

/-- What is made of the outcome of code, without code. -/
theorem unlimited_map (g : α → β) (frames : List Frame) :
    unlimited frames (fun limit => do return g (← code limit)) = (unlimited frames code).map g := by
  refine (h.unlimited_bind (fun a _ => agrees_pure (g a)) frames).trans ?_
  cases unlimited frames code <;> rfl

/-- Charges do not count without a limit. -/
theorem unlimited_charged (frames : List Frame) (cost : Nat) :
    unlimited frames (fun limit => do charge limit cost; code limit) = unlimited frames code := by
  change ending ((charge stepCap cost >>= fun _ => code stepCap) ⟨frames, 0⟩) = _
  rw [bind_run_ok (charge_stepCap cost ⟨frames, 0⟩)]
  exact h.ending_eq_unlimited frames _

/-- A value that is the outcome of code is what its run gives. -/
theorem exists_run {a : α} {frames : List Frame} (t : Nat) (ha : unlimited frames code = .ok a) :
    ∃ t', code stepCap ⟨frames, t⟩ = .ok a ⟨frames, t'⟩ := by
  have halike := h stepCap frames t 0
  have hending := (h.ending_eq_unlimited frames t).trans ha
  generalize code stepCap ⟨frames, t⟩ = x at halike hending
  generalize code stepCap ⟨frames, 0⟩ = x' at halike
  cases halike with
  | exceeded hl => cases hending
  | gave a' t' =>
    cases hending
    exact ⟨t', rfl⟩
  | failed he => cases hending

end Steady

end LiveNotes.Script
