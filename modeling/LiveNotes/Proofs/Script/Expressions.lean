import Mathlib.Data.List.Forall2
import LiveNotes.Script.Call
import LiveNotes.Proofs.Script.Confinement

/-!
The values of expressions that have steps enough: a rule for each construct, which gives its value from
those of its parts.

* `HasValue`: under all limits that are large enough, an expression has a value; `hasValue_iff`: that is
  its outcome without a limit, and so what it gives under any limit that is not exceeded;
* `HasValue.comparison`, `HasValue.arithmetic`, `HasValue.member`, `HasValue.array`, `HasValue.call`,
  `HasValue.globalMethod`, `HasValue.textMethod`, `HasValue.arrayMethod`: the rules;
* `HasValue.exists_invoke`: the value of its body is what a function gives.
-/

namespace LiveNotes.Script

/-- On some frames, whatever was charged before, an expression has a value under every limit that is large
enough. -/
def HasValue (frames : List Frame) (e : Expr) (v : Value) : Prop :=
  ∃ enough, ∀ limit, enough ≤ limit → ∀ steps, ending (eval limit e ⟨frames, steps⟩) = .ok v

/-- No call in progress has a variable of the name. -/
def Unbound (frames : List Frame) (name : String) : Prop := Machine.lookup? ⟨frames, 0⟩ name = none

theorem steady_eval (e : Expr) : Steady fun limit => eval limit e :=
  fun limit => (agrees_code limit).eval e

section Rules

variable {frames : List Frame} {e x y object : Expr} {a b v w : Value} {args : List Expr}
  {values : List Value}

/-- The value is the outcome without a limit. -/
theorem hasValue_iff : HasValue frames e v ↔ unlimited frames (fun limit => eval limit e) = .ok v := by
  constructor
  · rintro ⟨enough, h⟩
    have hlarge := h enough (Nat.le_refl enough) 0
    rw [← (steady_eval e).ending_eq (by rw [hlarge]; rfl), hlarge]
  · refine fun h => ⟨stepCap, fun limit hl steps => ?_⟩
    rw [← h]
    exact (steady_eval e limit frames steps 0).ending_eq fun hlt => absurd hl (Nat.not_le.2 hlt)

/-- Under a limit that is not exceeded, an expression gives its value. -/
theorem HasValue.ending_eq (h : HasValue frames e v) {limit steps : Nat}
    (hn : outOfSteps (ending (eval limit e ⟨frames, steps⟩)) = false) :
    ending (eval limit e ⟨frames, steps⟩) = .ok v :=
  ((steady_eval e).ending_eq hn).trans (hasValue_iff.1 h)

theorem HasValue.unique (hv : HasValue frames e v) (hw : HasValue frames e w) : v = w :=
  Except.ok.inj ((hasValue_iff.1 hv).symm.trans (hasValue_iff.1 hw))

/-- Code behind code whose outcome is known. -/
theorem Steady.unlimited_bind_ok {α β : Type} {code : Nat → Run α} {f : Nat → α → Run β} {r : α}
    (h : Steady code) (hr : unlimited frames code = .ok r) (hf : ∀ r, Steady fun limit => f limit r) :
    unlimited frames (fun limit => code limit >>= f limit) = unlimited frames fun limit => f limit r := by
  rw [h.unlimited_bind hf, hr]
  rfl

theorem hasValue_integer (n : Int64) : HasValue frames (.integer n) (.integer n) :=
  hasValue_iff.2 rfl

theorem hasValue_string (s : String) : HasValue frames (.string s) (.string s) :=
  hasValue_iff.2 rfl

/-- Arguments have their values one after the other. -/
theorem unlimited_evalAll (h : List.Forall₂ (HasValue frames) args values) (done : List Value) :
    unlimited frames (fun limit => evalAll limit done args) = .ok (done.reverse ++ values) := by
  induction h generalizing done with
  | nil => exact congrArg Except.ok (List.append_nil _).symm
  | @cons e v args values he _ ih =>
    have hrest (v : Value) : Steady fun limit => evalAll limit (v :: done) args :=
      fun limit => (agrees_code limit).evalAll args (v :: done)
    refine ((steady_eval e).unlimited_bind_ok (hasValue_iff.1 he) hrest).trans ((ih _).trans ?_)
    rw [List.reverse_cons, List.append_assoc]
    rfl

theorem HasValue.comparison (op : Comparison) (hx : HasValue frames x a) (hy : HasValue frames y b) :
    HasValue frames (.binary (.comparison op) x y) (.boolean (op.holds a b)) := by
  rw [hasValue_iff] at *
  have hright (a : Value) : Steady fun limit => do return Value.boolean (op.holds a (← eval limit y)) :=
    fun limit => (steady_eval y limit).bind fun _ => agrees_pure _
  have hboth : Steady fun limit => do
      let a ← eval limit x
      return Value.boolean (op.holds a (← eval limit y)) :=
    fun limit => (steady_eval x limit).bind fun a => hright a limit
  refine (hboth.unlimited_charged frames 1).trans ?_
  refine ((steady_eval x).unlimited_bind_ok hx hright).trans ?_
  rw [(steady_eval y).unlimited_map, hy]
  rfl

theorem HasValue.arithmetic (op : Arith) (hx : HasValue frames x a) (hy : HasValue frames y b)
    (hv : unlimited frames (fun limit => Script.arithmetic limit op a b) = .ok v) :
    HasValue frames (.binary (.arith op) x y) v := by
  rw [hasValue_iff] at *
  have hresult (a b : Value) : Steady fun limit => Script.arithmetic limit op a b :=
    fun limit => (agrees_code limit).arithmetic op a b
  have hright (a : Value) : Steady fun limit => eval limit y >>= Script.arithmetic limit op a :=
    fun limit => (steady_eval y limit).bind fun b => hresult a b limit
  have hboth : Steady fun limit => eval limit x >>= fun a => eval limit y >>= Script.arithmetic limit op a :=
    fun limit => (steady_eval x limit).bind fun a => hright a limit
  refine (hboth.unlimited_charged frames 1).trans ?_
  refine ((steady_eval x).unlimited_bind_ok hx hright).trans ?_
  exact ((steady_eval y).unlimited_bind_ok hy (hresult a)).trans hv

/-! ### Calls -/

/-- A name that has a value is that of no global. -/
theorem globalOf?_of_hasValue (h : HasValue frames object v) (steps : Nat) :
    globalOf? object ⟨frames, steps⟩ = .ok none ⟨frames, steps⟩ := by
  rw [hasValue_iff] at h
  cases object with
  | identifier name =>
    have hread : unlimited frames (fun limit => readName limit name) = .ok v :=
      (Steady.unlimited_charged (fun limit => (agrees_code limit).readName name) frames 1).symm.trans h
    have hlook (t : Nat) :
        lookup? name ⟨frames, t⟩ = .ok (Machine.lookup? ⟨frames, 0⟩ name) ⟨frames, t⟩ := rfl
    change ending (readName stepCap name ⟨frames, 0⟩) = _ at hread
    unfold readName at hread
    rw [bind_run_ok (hlook 0)] at hread
    unfold globalOf?
    dsimp only
    rw [bind_run_ok (hlook steps)]
    cases hv : Machine.lookup? ⟨frames, 0⟩ name with
    | some v => rfl
    | none =>
      -- a name that is no variable is that of a number or fails
      rw [hv] at hread
      dsimp only at hread
      split at hread
      · next hname => rw [hname]; rfl
      · split at hread
        · next hname => rw [hname]; rfl
        · split at hread
          · cases hread
          · cases hread
  | _ => rfl

theorem lookup?_of_unbound {name : String} (h : Unbound frames name) (steps : Nat) :
    lookup? name ⟨frames, steps⟩ = .ok none ⟨frames, steps⟩ := by
  change EStateM.Result.ok (Machine.lookup? ⟨frames, 0⟩ name) _ = _
  rw [h]

theorem ofName?_name (g : Global) : Global.ofName? g.name = some g := by
  cases g <;> rfl

theorem globalOf?_of_unbound {g : Global} (h : Unbound frames g.name) (steps : Nat) :
    globalOf? (.identifier g.name) ⟨frames, steps⟩ = .ok (some g) ⟨frames, steps⟩ := by
  have hlook : lookup? g.name ⟨frames, steps⟩ = .ok none ⟨frames, steps⟩ := lookup?_of_unbound h steps
  unfold globalOf?
  dsimp only
  rw [bind_run_ok hlook]
  dsimp only
  rw [ofName?_name]
  rfl

/-- A member of a value. -/
theorem HasValue.member {name : String} (h : HasValue frames object v)
    (hv : unlimited frames (fun _ => Script.member v name) = .ok w) : HasValue frames (.member object name) w := by
  have hmember : Steady fun _ => Script.member v name := fun limit => (agrees_code limit).member v name
  obtain ⟨t, hvalue⟩ := (steady_eval object).exists_run (min (0 + 1) stepCap) (hasValue_iff.1 h)
  rw [hasValue_iff]
  change ending (eval stepCap (.member object name) ⟨frames, 0⟩) = _
  rw [eval, bind_run_ok (charge_stepCap 1 ⟨frames, 0⟩), bind_run_ok (globalOf?_of_hasValue h _)]
  dsimp only
  rw [bind_run_ok hvalue]
  exact (hmember.ending_eq_unlimited frames t).trans hv

/-- The receiver of a method is evaluated first. -/
theorem unlimited_methodCall (h : HasValue frames object v) (method : String) (args : List Expr) :
    unlimited frames (fun limit => eval limit (.methodCall object method args)) =
      unlimited frames fun limit => callMethod limit v method (callbackOf? limit args)
        (startOf? limit args) (evalAll limit [] args) := by
  have hcall : Steady fun limit => callMethod limit v method (callbackOf? limit args)
      (startOf? limit args) (evalAll limit [] args) := fun limit =>
    have h := agrees_code limit
    h.callMethod _ method (h.callbackOf? args) (h.startOf? args) (h.evalAll args [])
  obtain ⟨t, hvalue⟩ := (steady_eval object).exists_run (min (0 + 1) stepCap) (hasValue_iff.1 h)
  change ending (eval stepCap (.methodCall object method args) ⟨frames, 0⟩) = _
  rw [eval, bind_run_ok (charge_stepCap 1 ⟨frames, 0⟩), bind_run_ok (globalOf?_of_hasValue h _)]
  dsimp only
  rw [bind_run_ok hvalue]
  exact hcall.ending_eq_unlimited frames t

section Arguments

variable (hargs : List.Forall₂ (HasValue frames) args values)
include hargs

/-- What is done with the values of the arguments. -/
theorem unlimited_evalAll_bind {f : Nat → List Value → Run Value} (hf : ∀ vs, Steady fun limit => f limit vs) :
    unlimited frames (fun limit => evalAll limit [] args >>= f limit) =
      unlimited frames fun limit => f limit values :=
  have hsteady : Steady fun limit => evalAll limit [] args := fun limit => (agrees_code limit).evalAll args []
  hsteady.unlimited_bind_ok (unlimited_evalAll hargs []) hf

/-- An array is written with its items. -/
theorem HasValue.array : HasValue frames (.array args) (.array values) := by
  have hitems : Steady fun limit => evalAll limit [] args := fun limit => (agrees_code limit).evalAll args []
  have harray : Steady fun limit => do return Value.array (← evalAll limit [] args) :=
    fun limit => (hitems limit).bind fun vs => agrees_pure _
  rw [hasValue_iff]
  refine (harray.unlimited_charged frames 1).trans ?_
  rw [hitems.unlimited_map, unlimited_evalAll hargs]
  rfl

/-- A global that no variable hides, called as a function. -/
theorem HasValue.call {g : Global} (hg : Unbound frames g.name) (hv : g.call? values = some v) :
    HasValue frames (.call g.name args) v := by
  have hcode (limit : Nat) := agrees_code limit
  have hcall : Steady fun limit => callName g.name (evalAll limit [] args) :=
    fun limit => (hcode limit).callName g.name ((hcode limit).evalAll args [])
  rw [hasValue_iff]
  refine (hcall.unlimited_charged frames 1).trans ?_
  change ending (callName g.name (evalAll stepCap [] args) ⟨frames, 0⟩) = _
  unfold callName
  rw [bind_run_ok (lookup?_of_unbound hg 0), ofName?_name]
  refine (unlimited_evalAll_bind hargs (f := fun _ => _) fun vs limit => ?_).trans ?_
  · dsimp only
    split
    · exact (hcode limit).gives _
    · exact (hcode limit).fails (.notCallable _)
  · rw [hv]
    rfl

/-- A member of a global that no variable hides. -/
theorem HasValue.globalMethod {g : Global} {method : String} (hg : Unbound frames g.name)
    (hv : g.method method values = .ok v) :
    HasValue frames (.methodCall (.identifier g.name) method args) v := by
  have hcode (limit : Nat) := agrees_code limit
  have hgive (vs : List Value) : Steady fun limit => callGlobalMethod limit g method (pure vs) :=
    fun limit => (hcode limit).callGlobalMethod g method ((hcode limit).gives vs)
  have hcall : Steady fun limit => callGlobalMethod limit g method (evalAll limit [] args) :=
    fun limit => (hcode limit).callGlobalMethod g method ((hcode limit).evalAll args [])
  rw [hasValue_iff]
  change ending (eval stepCap (.methodCall (.identifier g.name) method args) ⟨frames, 0⟩) = _
  rw [eval, bind_run_ok (charge_stepCap 1 ⟨frames, 0⟩), bind_run_ok (globalOf?_of_unbound hg _)]
  refine (hcall.ending_eq_unlimited frames _).trans ((unlimited_evalAll_bind hargs hgive).trans ?_)
  change ending (callGlobalMethod stepCap g method (pure values) ⟨frames, 0⟩) = _
  unfold callGlobalMethod
  rw [pure_bind, hv]
  cases v with
  | string s => exact congrArg ending (bind_run_ok (charge_stepCap s.utf8ByteSize ⟨frames, 0⟩))
  | _ => rfl

/-- A method of a text. -/
theorem HasValue.textMethod {s method : String} {m : TextMethod} (h : HasValue frames object (.string s))
    (hm : TextMethod.ofName? method = some m)
    (hv : unlimited frames (fun limit => m.run limit s values) = .ok v) :
    HasValue frames (.methodCall object method args) v := by
  have hplain (limit : Nat) : callMethod limit (.string s) method (callbackOf? limit args)
      (startOf? limit args) (evalAll limit [] args) =
      evalAll limit [] args >>= fun values => m.run limit s values := by
    unfold callMethod callPlainMethod
    dsimp only
    simp only [hm]
  rw [hasValue_iff, unlimited_methodCall h]
  simp only [hplain]
  rw [unlimited_evalAll_bind hargs fun vs limit => (agrees_code limit).textMethod s vs m, hv]

/-- A method of an array that takes no function. -/
theorem HasValue.arrayMethod {items : List Value} {method : String} {m : ArrayMethod}
    (h : HasValue frames object (.array items)) (hitem : ItemMethod.ofName? method = none)
    (hm : ArrayMethod.ofName? method = some m)
    (hv : unlimited frames (fun limit => m.run limit items values) = .ok v) :
    HasValue frames (.methodCall object method args) v := by
  have hplain (limit : Nat) : callMethod limit (.array items) method (callbackOf? limit args)
      (startOf? limit args) (evalAll limit [] args) =
      evalAll limit [] args >>= fun values => m.run limit items values := by
    unfold callMethod callPlainMethod
    simp only [hitem, hm]
  rw [hasValue_iff, unlimited_methodCall h]
  simp only [hplain]
  rw [unlimited_evalAll_bind hargs fun vs limit => (agrees_code limit).arrayMethod items vs m, hv]

end Arguments

/-- A function that gives an expression gives its value, with the arguments in the variables. -/
theorem HasValue.exists_invoke {params : List String} (hlength : values.length = params.length)
    (h : HasValue [bindParams params values] e v) :
    ∃ enough, ∀ limit, enough ≤ limit → invoke limit ⟨params, .expr e⟩ values = .ok v := by
  let f : Lambda := ⟨params, .expr e⟩
  obtain ⟨enough, hv⟩ := h
  refine ⟨max enough 1, fun limit hl => ?_⟩
  -- the call itself is one step, and its body runs on one frame
  have hcharge : charge limit 1 Machine.start = .ok () ⟨[], 1⟩ :=
    if_neg (Nat.not_lt.2 (Nat.le_trans (Nat.min_le_left _ _) (Nat.le_trans (Nat.le_max_right _ _) hl)))
  have hcall : Script.call limit f values Machine.start =
      within (bindParams params values) (eval limit e) ⟨[], 1⟩ := bind_run_ok hcharge
  have hbody := hv limit (Nat.le_trans (Nat.le_max_left _ _) hl) 1
  unfold invoke outcome
  rw [if_pos (show values.length = f.arity from hlength)]
  cases hresult : eval limit e ⟨[bindParams params values], 1⟩ with
  | ok w m =>
    rw [hresult] at hbody
    cases hbody
    rw [hcall, within_run_ok hresult]
  | error err m =>
    rw [hresult] at hbody
    cases hbody

end Rules

end LiveNotes.Script
