import Mathlib.Data.Nat.Find
import LiveNotes.Proofs.Script.Relation

/-!
The step budget decides whether a call ends, and nothing else. A run under a limit is compared with
the run of the same code under a larger one: they agree step by step until the first one runs out.

* `Prolongs limit r r'`: from every machine, `r` runs out of its limit, or `r'` ends in the same way
  and on the same machine;
* `prolongs_code`: the operations of a run keep this, and so every piece of code does;
* `invoke_threshold`: a call has one outcome, which every limit from some number on gives, and every
  smaller limit is exceeded.
-/

namespace LiveNotes.Script

/-! ### Two runs under two limits -/

/-- A run that ended for want of steps. -/
def RanOut {α : Type} (r : RunResult α) : Prop := ∃ k m, r = .error (.stepLimitExceeded k) m

/-- From every machine, `r` exceeds its limit, which is one that the counter can exceed, or `r'` gives
what `r` gives and that is not for want of steps. -/
def Prolongs {α : Type} (limit : Nat) (r r' : Run α) : Prop :=
  ∀ m, (limit < stepCap ∧ ∃ m', r m = .error (.stepLimitExceeded limit) m') ∨
    (r' m = r m ∧ ¬ RanOut (r m))

section Rules

variable {α β : Type} {limit limit' : Nat}

/-- A run that charges nothing is the same under both limits. -/
theorem Prolongs.of_not_ranOut {r : Run α} (h : ∀ m, ¬ RanOut (r m)) : Prolongs limit r r :=
  fun m => .inr ⟨rfl, h m⟩

theorem prolongs_pure (a : α) : Prolongs limit (pure a : Run α) (pure a) :=
  .of_not_ranOut fun _ ⟨_, _, h⟩ => by cases h

theorem prolongs_throw {e : ScriptError} (h : ∀ k, e ≠ .stepLimitExceeded k) :
    Prolongs limit (throw e : Run α) (throw e) := by
  refine .of_not_ranOut fun m ⟨k, m', hm⟩ => ?_
  injection hm with he
  exact h k he

theorem prolongs_lookup? (name : String) : Prolongs limit (lookup? name) (lookup? name) :=
  .of_not_ranOut fun _ ⟨_, _, h⟩ => by cases h

theorem prolongs_declare (name : String) (v : Value) :
    Prolongs limit (declare name v) (declare name v) :=
  .of_not_ranOut fun _ ⟨_, _, h⟩ => by cases h

/-- One run after the other: the second starts on one machine under both limits. -/
theorem Prolongs.bind {r r' : Run α} {f f' : α → Run β} (hr : Prolongs limit r r')
    (hf : ∀ a, Prolongs limit (f a) (f' a)) : Prolongs limit (r >>= f) (r' >>= f') := by
  intro m
  rcases hr m with ⟨hl, m', h⟩ | ⟨h, hn⟩
  · exact .inl ⟨hl, m', bind_run_error h⟩
  · cases hm : r m with
    | ok a m' =>
      rw [hm] at h
      rw [bind_run_ok h, bind_run_ok hm]
      exact hf a m'
    | error e m' =>
      rw [hm] at h
      rw [bind_run_error h, bind_run_error hm]
      refine .inr ⟨rfl, ?_⟩
      rintro ⟨k, m'', he⟩
      injection he with he
      exact hn ⟨k, m', by rw [hm, he]⟩

/-- Steps that fit into the smaller limit fit into the larger one, and the counters agree. -/
theorem prolongs_charge (h : limit ≤ limit') (cost : Nat) :
    Prolongs limit (charge limit cost) (charge limit' cost) := by
  intro m
  have hcap : min (m.steps + cost) stepCap ≤ stepCap := Nat.min_le_right _ _
  simp only [charge]
  by_cases hl : limit < min (m.steps + cost) stepCap
  · rw [if_pos hl]
    exact .inl ⟨by omega, _, rfl⟩
  · rw [if_neg hl, if_neg (by omega)]
    exact .inr ⟨rfl, fun ⟨_, _, hm⟩ => by cases hm⟩

/-- The frame of a call goes with the call, however it ends. -/
theorem Prolongs.within {r r' : Run α} (h : Prolongs limit r r') (frame : Frame) :
    Prolongs limit (within frame r) (within frame r') := by
  intro m
  rcases h { m with frames := frame :: m.frames } with ⟨hl, m', hm⟩ | ⟨hm, hn⟩
  · exact .inl ⟨hl, _, within_run_error hm⟩
  · cases hr : r { m with frames := frame :: m.frames } with
    | ok v m' =>
      rw [hr] at hm
      rw [within_run_ok hm, within_run_ok hr]
      exact .inr ⟨rfl, fun ⟨_, _, he⟩ => by cases he⟩
    | error e m' =>
      rw [hr] at hm
      rw [within_run_error hm, within_run_error hr]
      refine .inr ⟨rfl, ?_⟩
      rintro ⟨k, m'', he⟩
      injection he with he
      exact hn ⟨k, m', by rw [hr, he]⟩

/-- Every operation keeps this, so all code does. -/
theorem prolongs_code (h : limit ≤ limit') :
    CodeRelation (Prolongs limit) (Prolongs limit) limit limit' where
  gives := prolongs_pure
  fails he := prolongs_throw he.1
  charge := prolongs_charge h
  lookup? := prolongs_lookup?
  bind := Prolongs.bind
  undefined _ := prolongs_throw (by simp)
  inside := id
  bind_inside := Prolongs.bind
  declare name v h := (prolongs_declare name v).bind fun _ => h
  within frame h := h.within frame

end Rules

/-! ### Calls -/

section Calls

variable (f : Lambda) (args : List Value)

/-- A call runs out of its limit, which is one that the counter can exceed, or every larger limit
gives the same. -/
theorem invoke_prolongs {limit limit' : Nat} (h : limit ≤ limit') :
    (limit < stepCap ∧ invoke limit f args = .error (.stepLimitExceeded limit)) ∨
      (invoke limit' f args = invoke limit f args ∧
        ∀ k, invoke limit f args ≠ .error (.stepLimitExceeded k)) := by
  simp only [invoke, outcome]
  split
  · rcases (prolongs_code h).call f args Machine.start with ⟨hl, m, hm⟩ | ⟨hm, hn⟩
    · rw [hm]
      exact .inl ⟨hl, rfl⟩
    · rw [hm]
      refine .inr ⟨rfl, fun k hk => hn ?_⟩
      cases hr : call limit f args Machine.start with
      | ok v m => rw [hr] at hk; cases hk
      | error e m =>
        rw [hr] at hk
        injection hk with he
        exact ⟨k, m, by rw [he]⟩
  · exact .inr ⟨rfl, fun _ => nofun⟩

/-- A larger limit changes the outcome of a call only if the smaller one was exceeded. So there is a
number of steps that the call needs, within what the counter holds: every limit below it is exceeded,
and every limit from it on gives one outcome, which is not that of an exceeded limit. -/
theorem invoke_threshold :
    (∀ limit limit', limit ≤ limit' → (∀ k, invoke limit f args ≠ .error (.stepLimitExceeded k)) →
      invoke limit' f args = invoke limit f args) ∧
    ∃ needed ≤ stepCap, ∃ result, (∀ k, result ≠ .error (.stepLimitExceeded k)) ∧
      (∀ limit < needed, invoke limit f args = .error (.stepLimitExceeded limit)) ∧
      ∀ limit, needed ≤ limit → invoke limit f args = result := by
  have agree {limit limit' : Nat} (h : limit ≤ limit')
      (hn : ∀ k, invoke limit f args ≠ .error (.stepLimitExceeded k)) :
      invoke limit' f args = invoke limit f args :=
    (invoke_prolongs f args h).elim (fun hl => absurd hl.2 (hn _)) (·.1)
  refine ⟨fun limit limit' => agree, ?_⟩
  classical
  -- the counter stops at its cap, so a limit there is not exceeded
  have atCap : ∀ k, invoke stepCap f args ≠ .error (.stepLimitExceeded k) :=
    (invoke_prolongs f args (Nat.le_refl stepCap)).elim
      (fun hl => absurd hl.1 (Nat.lt_irrefl _)) (·.2)
  have enough : ∃ n, ∀ k, invoke n f args ≠ .error (.stepLimitExceeded k) := ⟨stepCap, atCap⟩
  refine ⟨Nat.find enough, Nat.find_min' enough atCap, invoke (Nat.find enough) f args,
    Nat.find_spec enough, ?_, ?_⟩
  · intro limit hl
    have hmin := Nat.find_min enough hl
    exact (invoke_prolongs f args (Nat.le_refl limit)).elim (·.2) fun h => absurd h.2 hmin
  · exact fun limit hl => agree hl (Nat.find_spec enough)

/-- A call of `x => x` with true needs three steps. -/
theorem invoke_threshold_identity :
    (∀ k, invoke 3 ⟨["x"], .expr (.identifier "x")⟩ [.boolean true] ≠
      .error (.stepLimitExceeded k)) ∧
    invoke 100000 ⟨["x"], .expr (.identifier "x")⟩ [.boolean true] = .ok (.boolean true) := by
  have needed : invoke 3 ⟨["x"], .expr (.identifier "x")⟩ [.boolean true] = .ok (.boolean true) := rfl
  have within : ∀ k, invoke 3 ⟨["x"], .expr (.identifier "x")⟩ [.boolean true] ≠
      .error (.stepLimitExceeded k) := by
    rw [needed]
    exact fun _ => nofun
  exact ⟨within, ((invoke_threshold _ _).1 3 100000 (by decide) within).trans needed⟩

end Calls

end LiveNotes.Script
