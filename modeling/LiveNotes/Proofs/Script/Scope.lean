import LiveNotes.Proofs.Script.Frames

/-!
Names are resolved when they are read, by searching the frames of the calls in progress. Where the
text of a function binds every name that it reads or calls, that search never fails.

* `Expr.scoped names`, `Body.scoped names`: every name that is read or called in the code is bound
  around it, or among `names`, or has a meaning without being bound;
* `eval_keeps`, `perform_settles`: scoped code keeps the frames and finds its variables, by induction on
  the syntax;
* `invoke_ne_undefinedVariable`: no call of a scoped function ends for want of a variable.
-/

namespace LiveNotes.Script

/-! ### Scoped code -/

/-- A name that can be called: a bound one, or a global. -/
def callable (names : List String) (name : String) : Bool :=
  decide (name ∈ names) || (Global.ofName? name).isSome

/-- A name that can be read: one that can be called, or one of the two numbers with a name. -/
def readable (names : List String) (name : String) : Bool :=
  callable names name || decide (name = "NaN") || decide (name = "Infinity")

mutual

/-- Every name in an expression can be read, or called where it is called. -/
def Expr.scoped (names : List String) : Expr → Bool
  | .float _ | .integer _ | .string _ | .boolean _ | .null => true
  | .identifier name => readable names name
  | .member target _ => target.scoped names
  | .index target key => target.scoped names && key.scoped names
  | .unary _ operand => operand.scoped names
  | .binary _ left right => left.scoped names && right.scoped names
  | .conditional condition yes no =>
    condition.scoped names && (yes.scoped names && no.scoped names)
  | .call callee args => callable names callee && allScoped names args
  | .methodCall target _ args => target.scoped names && allScoped names args
  | .function params body => body.scoped (params ++ names)
  | .object fields => fieldsScoped names fields
  | .array items => allScoped names items

/-- The same of the body of a function, whose parameters are among the names. -/
def Body.scoped (names : List String) : Body → Bool
  | .expr e => e.scoped names
  | .block statements => blockScoped names statements

/-- The same of expressions. -/
def allScoped (names : List String) : List Expr → Bool
  | [] => true
  | e :: es => e.scoped names && allScoped names es

/-- The same of the values of fields. -/
def fieldsScoped (names : List String) : List (String × Expr) → Bool
  | [] => true
  | (_, e) :: fields => e.scoped names && fieldsScoped names fields

/-- The same of statements: what one declares is bound in those behind it. -/
def blockScoped (names : List String) : List Statement → Bool
  | [] => true
  | .declare name e :: rest => e.scoped names && blockScoped (name :: names) rest
  | .give e :: rest => e.scoped names && blockScoped names rest
  | .expression e :: rest => e.scoped names && blockScoped names rest

end

/-- A function in whose text every name is bound. -/
def Lambda.scoped (f : Lambda) : Bool := f.body.scoped f.params

/-! ### Names that are found -/

/-- An error that is not about a variable. -/
def Resolved (e : ScriptError) : Prop := ∀ name, e ≠ .undefinedVariable name

/-- Every operation keeps the frames, and no error of its own is about a variable. -/
theorem operations_resolved {names : List String} (limit : Nat) :
    RunRelation (fun r _ => Keeps names Resolved r) limit limit :=
  keeps_operations fun _ h => h

section Names

variable {names : List String} {limit : Nat}

/-- A name that is not bound has another meaning, if it is one that can be called. -/
theorem isSome_ofName?_of_callable {name : String} {m : Machine} (h : callable names name = true)
    (hm : m.Binds names) (hn : m.lookup? name = none) : (Global.ofName? name).isSome = true := by
  unfold callable at h
  rcases Bool.or_eq_true_iff.1 h with h | h
  · have := hm name (of_decide_eq_true h)
    rw [hn] at this
    cases this
  · exact h

theorem keeps_readName {name : String} (h : readable names name = true) :
    Keeps names Resolved (readName limit name) := by
  intro m hm
  unfold readName
  cases hn : m.lookup? name with
  | some v =>
    rw [bind_run_ok (show lookup? name m = .ok (some v) m by rw [← hn]; rfl)]
    exact ((operations_resolved limit).chargeCopy v).bind (fun _ => keeps_pure v) m hm
  | none =>
    rw [bind_run_ok (show lookup? name m = .ok none m by rw [← hn]; rfl)]
    dsimp only
    split
    · rfl
    · split
      · rfl
      · rw [if_pos]
        · exact (operations_resolved limit).fault _ m hm
        · have : callable names name = true := by simpa [readable, *] using h
          exact isSome_ofName?_of_callable this hm hn

theorem keeps_callName {callee : String} (h : callable names callee = true)
    {args : Run (List Value)} (ha : Keeps names Resolved args) :
    Keeps names Resolved (callName callee args) := by
  intro m hm
  unfold callName
  cases hn : m.lookup? callee with
  | some v =>
    rw [bind_run_ok (show lookup? callee m = .ok (some v) m by rw [← hn]; rfl)]
    exact keeps_throw (by simp [Resolved]) m hm
  | none =>
    rw [bind_run_ok (show lookup? callee m = .ok none m by rw [← hn]; rfl)]
    obtain ⟨g, hg⟩ := Option.isSome_iff_exists.1 (isSome_ofName?_of_callable h hm hn)
    dsimp only
    rw [hg]
    refine ha.bind (fun values => ?_) m hm
    split
    · exact keeps_pure _
    · exact keeps_throw (by simp [Resolved])

end Names

/-! ### Evaluation of scoped code -/

section Evaluation

variable {limit : Nat}

theorem keeps_one {names : List String} : Keeps names Resolved (charge limit 1) :=
  (operations_resolved limit).charge 1

mutual

/-- A scoped expression keeps the frames and finds its variables, wherever the names are bound. -/
theorem eval_keeps : ∀ (e : Expr) {names : List String}, e.scoped names = true →
    Keeps names Resolved (eval limit e)
  | .float _, _, _ | .integer _, _, _ | .string _, _, _ | .boolean _, _, _ | .null, _, _ =>
    keeps_one.bind fun _ => keeps_pure _
  | .identifier _, _, h => keeps_one.bind fun _ => keeps_readName h
  | .member target name, names, h => by
    have drawn : Keeps names Resolved (do member (← eval limit target) name) :=
      (eval_keeps target h).bind fun t => (operations_resolved limit).member t name
    rw [eval]
    refine keeps_one.bind fun _ => ((operations_resolved limit).globalOf? target).bind fun g => ?_
    rcases g with _ | g
    · exact drawn
    · cases g
      case math => exact keeps_pure _
      all_goals exact drawn
  | .index target key, names, h => by
    have ⟨ht, hk⟩ := Bool.and_eq_true_iff.1 h
    exact keeps_one.bind fun _ => (eval_keeps target ht).bind fun _ =>
      (eval_keeps key hk).bind fun _ => (operations_resolved limit).index _ _
  | .unary op operand, names, h =>
    keeps_one.bind fun _ => (eval_keeps operand h).bind fun _ => keeps_pure _
  | .binary op left right, names, h => by
    have ⟨hl, hr⟩ := Bool.and_eq_true_iff.1 h
    rw [eval]
    refine keeps_one.bind fun _ => (eval_keeps left hl).bind fun a => ?_
    cases op with
    | logic op => exact .ite (keeps_pure _) (eval_keeps right hr)
    | arith op =>
      exact (eval_keeps right hr).bind fun b => (operations_resolved limit).arithmetic op a b
    | comparison op => exact (eval_keeps right hr).bind fun b => keeps_pure _
  | .conditional condition yes no, names, h => by
    have ⟨hc, h⟩ := Bool.and_eq_true_iff.1 h
    have ⟨hy, hn⟩ := Bool.and_eq_true_iff.1 h
    exact keeps_one.bind fun _ => (eval_keeps condition hc).bind fun _ =>
      .ite (eval_keeps yes hy) (eval_keeps no hn)
  | .call callee args, names, h => by
    have ⟨hc, ha⟩ := Bool.and_eq_true_iff.1 h
    exact keeps_one.bind fun _ => keeps_callName hc (evalAll_keeps args [] ha)
  | .methodCall target method args, names, h => by
    have ⟨ht, ha⟩ := Bool.and_eq_true_iff.1 h
    rw [eval]
    refine keeps_one.bind fun _ => ((operations_resolved limit).globalOf? target).bind fun g => ?_
    cases g with
    | some g =>
      exact @RunRelation.callGlobalMethod _ limit limit (operations_resolved limit) g method _
        (evalAll limit [] args) (evalAll_keeps args [] ha)
    | none =>
      refine (eval_keeps target ht).bind fun t => ?_
      exact @RunRelation.callMethod _ limit limit (operations_resolved limit) t method _ _
        (callbackOf?_keeps args ha) _ _ (startOf?_keeps args ha) _ (evalAll limit [] args)
        (evalAll_keeps args [] ha)
  | .function _ _, _, _ => keeps_one.bind fun _ => (operations_resolved limit).fault _
  | .object fields, names, h =>
    keeps_one.bind fun _ => (evalFields_keeps fields [] h).bind fun _ => keeps_pure _
  | .array items, names, h =>
    keeps_one.bind fun _ => (evalAll_keeps items [] h).bind fun _ => keeps_pure _

/-- A callback that stands in scoped code runs where the names around it are still bound. -/
theorem callbackOf?_keeps : ∀ (args : List Expr) {names : List String},
    allScoped names args = true →
      Option.Rel (Callback.Related fun r _ => Keeps names Resolved r) (callbackOf? limit args)
        (callbackOf? limit args)
  | .function params body :: es, names, h => by
    have ⟨hb, _⟩ := Bool.and_eq_true_iff.1 h
    exact .some ⟨rfl, keeps_callBody (fun _ h => h) (perform_settles body hb)⟩
  | [], _, _ => .none
  | .float _ :: _, _, _ | .integer _ :: _, _, _ | .string _ :: _, _, _ | .boolean _ :: _, _, _
  | .null :: _, _, _ | .identifier _ :: _, _, _ | .member _ _ :: _, _, _ | .index _ _ :: _, _, _
  | .unary _ _ :: _, _, _ | .binary _ _ _ :: _, _, _ | .conditional _ _ _ :: _, _, _
  | .call _ _ :: _, _, _ | .methodCall _ _ _ :: _, _, _ | .object _ :: _, _, _
  | .array _ :: _, _, _ => .none

theorem startOf?_keeps : ∀ (args : List Expr) {names : List String}, allScoped names args = true →
    Option.Rel (fun r _ => Keeps names Resolved r) (startOf? limit args) (startOf? limit args)
  | [], _, _ | [_], _, _ => .none
  | _ :: start :: _, names, h => by
    have ⟨_, h⟩ := Bool.and_eq_true_iff.1 h
    have ⟨hs, _⟩ := Bool.and_eq_true_iff.1 h
    exact .some (eval_keeps start hs)

theorem evalAll_keeps : ∀ (es : List Expr) (done : List Value) {names : List String},
    allScoped names es = true → Keeps names Resolved (evalAll limit done es)
  | [], _, _, _ => keeps_pure _
  | e :: es, done, names, h => by
    have ⟨he, hes⟩ := Bool.and_eq_true_iff.1 h
    exact (eval_keeps e he).bind fun v => evalAll_keeps es (v :: done) hes

theorem evalFields_keeps : ∀ (fields : List (String × Expr)) (done : Entries Value)
    {names : List String}, fieldsScoped names fields = true →
      Keeps names Resolved (evalFields limit done fields)
  | [], _, _, _ => keeps_pure _
  | (name, e) :: fields, done, names, h => by
    have ⟨he, hf⟩ := Bool.and_eq_true_iff.1 h
    exact (eval_keeps e he).bind fun v => evalFields_keeps fields (done.insert name v) hf

theorem perform_settles : ∀ (body : Body) {names : List String}, body.scoped names = true →
    Settles names Resolved (perform limit body)
  | .expr e, _, h => (eval_keeps e h).settles
  | .block statements, _, h => runStatements_settles statements h

/-- Behind each declaration there is one more name with a value, in the code and on the machine. -/
theorem runStatements_settles : ∀ (statements : List Statement) {names : List String},
    blockScoped names statements = true → Settles names Resolved (runStatements limit statements)
  | [], _, _ => (keeps_pure _).settles
  | .declare name e :: rest, names, h => by
    have ⟨he, hr⟩ := Bool.and_eq_true_iff.1 h
    exact keeps_one.bind_settles fun _ => (eval_keeps e he).bind_settles fun v =>
      (runStatements_settles rest hr).declare v
  | .give e :: rest, names, h => by
    have ⟨he, _⟩ := Bool.and_eq_true_iff.1 h
    exact (keeps_one.bind fun _ => eval_keeps e he).settles
  | .expression e :: rest, names, h => by
    have ⟨he, hr⟩ := Bool.and_eq_true_iff.1 h
    exact keeps_one.bind_settles fun _ => (eval_keeps e he).bind_settles fun _ =>
      runStatements_settles rest hr

end

end Evaluation

/-! ### Calls -/

/-- A scoped function keeps the frames around its call and finds its variables. -/
theorem call_keeps {f : Lambda} (h : f.scoped = true) (limit : Nat) (args : List Value) :
    Keeps [] Resolved (call limit f args) := by
  have hbody : f.body.scoped (f.params ++ []) = true := by
    rw [List.append_nil]
    exact h
  exact keeps_callBody (fun _ h => h) (perform_settles f.body hbody) args

/-- No call of a function in whose text every name is bound ends for want of a variable. -/
theorem invoke_ne_undefinedVariable {f : Lambda} (h : f.scoped = true) (limit : Nat)
    (args : List Value) (name : String) : invoke limit f args ≠ .error (.undefinedVariable name) := by
  have hcall := call_keeps h limit args Machine.start (by nofun)
  unfold invoke outcome
  split
  · split
    · simp
    · next e m hm =>
      rw [hm] at hcall
      intro he
      exact hcall.2 name (Except.error.inj he)
  · simp

/-- A function of an array and a number, with a callback that reads variables of the call around it,
declares one of its own under a name from there, and has a parameter that it gets no argument for. -/
def scaling : Lambda := ⟨["xs", "k"], .block [
  .declare "n" (.member (.identifier "xs") "length"),
  .give (.methodCall (.identifier "xs") "map" [.function ["x", "i", "all", "rest"] (.block [
    .declare "k" (.binary (.arith .multiply) (.identifier "k") (.identifier "n")),
    .give (.array [.call "String" [.identifier "k"], .identifier "x", .identifier "rest"])])])]⟩

/-- A call of it with an array of texts where it expects a number. -/
theorem invoke_ne_undefinedVariable_scaling : scaling.scoped = true ∧
    invoke 1000 scaling [.array [.null, .string "a"], .array [.string "b"]] ≠
      .error (.undefinedVariable "rest") := by
  have hscoped : scaling.scoped = true := by decide
  exact ⟨hscoped, invoke_ne_undefinedVariable hscoped 1000 _ "rest"⟩

end LiveNotes.Script
