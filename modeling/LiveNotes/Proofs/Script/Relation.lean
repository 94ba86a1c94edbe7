import Mathlib.Data.Option.Defs
import LiveNotes.Script.Call

/-!
Relations between two runs of the same code, the second one under another limit. A relation that the
operations of a run keep, and that goes from the parts of a run to the whole, holds between the two runs
of every piece of code. So what is to be shown of all code needs no induction on the syntax of its own.

* `RunRelation`, `CodeRelation`: relations that the operations keep, those that set and drop variables
  among them or not;
* `RunRelation.textMethod`, …, `RunRelation.callMethod`: every operation of the language keeps such a
  relation;
* `CodeRelation.eval`, `CodeRelation.call`: every expression and every call of a function does, by
  induction on the syntax.
-/

namespace LiveNotes.Script

/-! ### Runs -/

/-- What a run gives. -/
abbrev RunResult (α : Type) := EStateM.Result ScriptError Machine α

section Runs

variable {α β : Type} {r : Run α} {f : α → Run β} {frame : Frame} {m m' : Machine} {a : α}
  {e : ScriptError}

theorem bind_run_ok (h : r m = .ok a m') : (r >>= f) m = f a m' := by
  change EStateM.bind r f m = _
  unfold EStateM.bind
  rw [h]

theorem bind_run_error (h : r m = .error e m') : (r >>= f) m = .error e m' := by
  change EStateM.bind r f m = _
  unfold EStateM.bind
  rw [h]

theorem within_run_ok (h : r { m with frames := frame :: m.frames } = .ok a m') :
    within frame r m = .ok a { m' with frames := m'.frames.tail } := by
  unfold within
  rw [h]

theorem within_run_error (h : r { m with frames := frame :: m.frames } = .error e m') :
    within frame r m = .error e { m' with frames := m'.frames.tail } := by
  unfold within
  rw [h]

end Runs

/-! ### Relations -/

/-- An error that is neither for want of steps nor about a variable. -/
def ScriptError.IsPlain (e : ScriptError) : Prop :=
  (∀ k, e ≠ .stepLimitExceeded k) ∧ ∀ name, e ≠ .undefinedVariable name

namespace ScriptError.IsPlain

theorem typeFault (f : TypeFault) : (ScriptError.typeFault f).IsPlain := ⟨by simp, by simp⟩

theorem unknownMethod (receiver method : String) :
    (ScriptError.unknownMethod receiver method).IsPlain := ⟨by simp, by simp⟩

theorem notCallable (name : String) : (ScriptError.notCallable name).IsPlain := ⟨by simp, by simp⟩

theorem nestingTooDeep : ScriptError.nestingTooDeep.IsPlain := ⟨by simp, by simp⟩

end ScriptError.IsPlain

/-- A relation between runs under two limits that the operations keep which leave the variables as they
are. -/
structure RunRelation (R : ∀ {α : Type}, Run α → Run α → Prop) (limit limit' : Nat) : Prop where
  gives {α : Type} (a : α) : R (pure a) (pure a)
  fails {α : Type} {e : ScriptError} (he : e.IsPlain) : R (throw e : Run α) (throw e)
  charge (cost : Nat) : R (charge limit cost) (charge limit' cost)
  lookup? (name : String) : R (lookup? name) (lookup? name)
  bind {α β : Type} {r r' : Run α} {f f' : α → Run β} (hr : R r r') (hf : ∀ a, R (f a) (f' a)) :
    R (r >>= f) (r' >>= f')

/-- A relation `R` between runs that all operations keep. Inside a call, where variables may be set, the
relation is `S`. -/
structure CodeRelation (R S : ∀ {α : Type}, Run α → Run α → Prop) (limit limit' : Nat) : Prop
    extends RunRelation R limit limit' where
  undefined {α : Type} (name : String) :
    R (throw (.undefinedVariable name) : Run α) (throw (.undefinedVariable name))
  inside {α : Type} {r r' : Run α} (h : R r r') : S r r'
  bind_inside {α β : Type} {r r' : Run α} {f f' : α → Run β} (hr : R r r')
    (hf : ∀ a, S (f a) (f' a)) : S (r >>= f) (r' >>= f')
  declare {α : Type} {f f' : Unit → Run α} (name : String) (v : Value) (h : S (f ()) (f' ())) :
    S (declare name v >>= f) (declare name v >>= f')
  within {α : Type} {r r' : Run α} (frame : Frame) (h : S r r') :
    R (within frame r) (within frame r')

/-- Two functions that give related runs on the same arguments. -/
structure Callback.Related (R : ∀ {α : Type}, Run α → Run α → Prop) (f f' : Callback) : Prop where
  arity_eq : f'.arity = f.arity
  call (args : List Value) : R (f.call args) (f'.call args)

/-- No member of a global fails for want of steps or of a variable. -/
theorem Global.isPlain_of_method {g : Global} {name : String} {args : List Value} {e : ScriptError}
    (h : g.method name args = .error e) : e.IsPlain := by
  unfold Global.method at h
  dsimp only at h
  split at h
  · split at h
    · cases h
    · cases h
      exact .unknownMethod _ _
  · cases h
  · split at h
    · cases h
    · cases h
      exact .typeFault _
  all_goals first
    | cases h; done
    | cases h; exact .unknownMethod _ _

/-- Two choices are related branch by branch. -/
theorem related_ite {R : ∀ {α : Type}, Run α → Run α → Prop} {α : Type} {p : Prop} [Decidable p]
    {r r' s s' : Run α} (hr : R r r') (hs : R s s') : R (if p then r else s) (if p then r' else s') := by
  split
  · exact hr
  · exact hs

namespace RunRelation

variable {R : ∀ {α : Type}, Run α → Run α → Prop} {limit limit' : Nat}
  (h : RunRelation R limit limit')
include h

theorem fault {α : Type} (f : TypeFault) : R (fault f : Run α) (fault f) :=
  h.fails (.typeFault f)

theorem chargeCopy (v : Value) : R (chargeCopy limit v) (chargeCopy limit' v) := by
  unfold Script.chargeCopy
  split
  · exact h.charge _
  · exact h.fails .nestingTooDeep

/-- What is charged and then given. -/
theorem charged {α : Type} (cost : Nat) (a : α) :
    R (do Script.charge limit cost; return a) (do Script.charge limit' cost; return a) :=
  h.bind (h.charge cost) fun _ => h.gives a

/-! ### Methods -/

theorem pad (args : List Value) (length : Nat) :
    R (pad limit args length) (pad limit' args length) :=
  h.charged _ _

theorem textMethod (s : String) (args : List Value) (m : TextMethod) :
    R (m.run limit s args) (m.run limit' s args) := by
  cases m with
  | split =>
    simp only [TextMethod.run]
    split
    · exact h.gives _
    · exact h.gives _
    · exact h.charged _ _
  | «repeat» => exact related_ite (h.fault _) (h.charged _ _)
  | padStart => exact h.bind (h.pad args _) fun _ => h.gives _
  | padEnd => exact h.bind (h.pad args _) fun _ => h.gives _
  | concat => exact h.charged _ _
  | _ => exact h.gives _

theorem joinItems (sep : String) (items : List Value) :
    R (joinItems limit sep items) (joinItems limit' sep items) :=
  h.charged _ _

theorem arrayMethod (items args : List Value) (m : ArrayMethod) :
    R (m.run limit items args) (m.run limit' items args) := by
  cases m with
  | join =>
    simp only [ArrayMethod.run]
    split
    all_goals exact h.joinItems _ _
  | text => exact h.joinItems _ _
  | slice => exact h.bind (h.chargeCopy _) fun _ => h.gives _
  | concat =>
    simp only [ArrayMethod.run]
    split
    · exact h.charged _ _
    · exact h.fails .nestingTooDeep
  | reverse => exact h.bind (h.chargeCopy _) fun _ => h.gives _
  | _ => exact h.gives _

/-! ### Loops over the items of an array -/

section Loops

variable {step step' : Nat → Value → Run Value}

theorem mapItems (hs : ∀ i v, R (step i v) (step' i v)) (done : List Value) (i : Nat)
    (items : List Value) : R (mapItems step done i items) (mapItems step' done i items) := by
  induction items generalizing done i with
  | nil => exact h.gives _
  | cons v vs ih => exact h.bind (hs i v) fun _ => ih _ _

theorem filterItems (hs : ∀ i v, R (step i v) (step' i v)) (kept : List Value) (i : Nat)
    (items : List Value) : R (filterItems step kept i items) (filterItems step' kept i items) := by
  induction items generalizing kept i with
  | nil => exact h.gives _
  | cons v vs ih => exact h.bind (hs i v) fun _ => ih _ _

theorem firstWhere (hs : ∀ i v, R (step i v) (step' i v)) (truth : Bool) (i : Nat)
    (items : List Value) : R (firstWhere step truth i items) (firstWhere step' truth i items) := by
  induction items generalizing i with
  | nil => exact h.gives _
  | cons v vs ih => exact h.bind (hs i v) fun _ => related_ite (h.gives _) (ih _)

theorem foldItems {step step' : Value → Nat → Value → Run Value}
    (hs : ∀ r i v, R (step r i v) (step' r i v)) (result : Value) (i : Nat) (items : List Value) :
    R (foldItems step result i items) (foldItems step' result i items) := by
  induction items generalizing result i with
  | nil => exact h.gives _
  | cons v vs ih => exact h.bind (hs result i v) fun _ => ih _ _

variable {f f' : Callback} (hf : f.Related R f')
include hf

theorem onItem (items : List Value) (i : Nat) (v : Value) :
    R (f.onItem limit items i v) (f'.onItem limit' items i v) := by
  unfold Callback.onItem
  rw [hf.arity_eq]
  split
  · exact h.bind (h.chargeCopy _) fun _ => hf.call _
  · exact hf.call _

theorem onResult (items : List Value) (r : Value) (i : Nat) (v : Value) :
    R (f.onResult limit items r i v) (f'.onResult limit' items r i v) := by
  unfold Callback.onResult
  rw [hf.arity_eq]
  split
  · exact h.bind (h.chargeCopy _) fun _ => hf.call _
  · exact hf.call _

theorem itemMethod {start start' : Option (Run Value)} (hs : Option.Rel R start start')
    (items : List Value) (m : ItemMethod) :
    R (m.run limit items f start) (m.run limit' items f' start') := by
  cases m with
  | map => exact h.bind (h.mapItems (h.onItem hf items) _ _ _) fun _ => h.gives _
  | filter => exact h.bind (h.filterItems (h.onItem hf items) _ _ _) fun _ => h.gives _
  | reduce =>
    simp only [ItemMethod.run]
    cases hs with
    | some hs => exact h.bind hs fun _ => h.foldItems (h.onResult hf _) _ _ _
    | none =>
      cases items with
      | nil => exact h.fault _
      | cons first rest => exact h.foldItems (h.onResult hf _) _ _ _
  | _ => exact h.bind (h.firstWhere (h.onItem hf items) _ _ _) fun _ => h.gives _

end Loops

/-! ### Members, names and operators -/

theorem member (target : Value) (name : String) : R (member target name) (member target name) := by
  unfold Script.member
  split
  · exact h.fault _
  all_goals exact h.gives _

theorem index (target key : Value) : R (index target key) (index target key) := by
  unfold Script.index
  split
  · exact related_ite (h.gives _) (h.member _ _)
  · exact related_ite (h.gives _) (h.member _ _)
  · exact h.member _ _

theorem globalOf? (e : Expr) : R (globalOf? e) (globalOf? e) := by
  unfold Script.globalOf?
  split
  · refine h.bind (h.lookup? _) fun found => ?_
    cases found with
    | some v => exact h.gives _
    | none => exact h.gives _
  · exact h.gives _

theorem arithmetic (op : Arith) (a b : Value) :
    R (arithmetic limit op a b) (arithmetic limit' op a b) :=
  related_ite (h.charged _ _) (h.gives _)

theorem callGlobalMethod (g : Global) (method : String) {args args' : Run (List Value)}
    (ha : R args args') :
    R (callGlobalMethod limit g method args) (callGlobalMethod limit' g method args') := by
  unfold Script.callGlobalMethod
  refine h.bind ha fun values => ?_
  split
  · next e he => exact h.fails (Global.isPlain_of_method he)
  · exact h.charged _ _
  · exact h.gives _

theorem callPlainMethod (target : Value) (method : String) {args args' : Run (List Value)}
    (ha : R args args') :
    R (callPlainMethod limit target method args) (callPlainMethod limit' target method args') := by
  have unknown : R (throw (.unknownMethod target.kind.word method) : Run Value)
      (throw (.unknownMethod target.kind.word method)) := h.fails (.unknownMethod _ _)
  unfold Script.callPlainMethod
  split
  · refine h.bind ha fun values => ?_
    split
    · exact h.textMethod _ _ _
    · exact unknown
  · refine h.bind ha fun values => ?_
    split
    · exact h.arrayMethod _ _ _
    · exact unknown
  · refine h.bind ha fun values => ?_
    split
    · exact h.gives _
    · exact unknown
  · refine h.bind ha fun values => ?_
    split
    · exact h.gives _
    · exact unknown
  · exact related_ite (h.gives _) unknown
  · exact h.fault _
  · exact unknown

theorem callMethod (target : Value) (method : String) {f f' : Option Callback}
    (hf : Option.Rel (Callback.Related R) f f') {start start' : Option (Run Value)}
    (hs : Option.Rel R start start') {args args' : Run (List Value)} (ha : R args args') :
    R (callMethod limit target method f start args)
      (callMethod limit' target method f' start' args') := by
  unfold Script.callMethod
  split
  · cases hf with
    | some hf => exact h.itemMethod hf hs _ _
    | none => exact h.fault _
  · exact h.callPlainMethod _ _ ha

end RunRelation

/-! ### Evaluation -/

namespace CodeRelation

variable {R S : ∀ {α : Type}, Run α → Run α → Prop} {limit limit' : Nat}

section Names

variable (h : CodeRelation R S limit limit')
include h

theorem readName (name : String) : R (readName limit name) (readName limit' name) := by
  unfold Script.readName
  refine h.bind (h.lookup? _) fun found => ?_
  cases found with
  | some v => exact h.bind (h.chargeCopy v) fun _ => h.gives _
  | none => exact related_ite (h.gives _) (related_ite (h.gives _) (related_ite (h.fault _) (h.undefined _)))

theorem callName (callee : String) {args args' : Run (List Value)} (ha : R args args') :
    R (callName callee args) (callName callee args') := by
  unfold Script.callName
  refine h.bind (h.lookup? _) fun found => ?_
  cases found with
  | some v => exact h.fails (.notCallable callee)
  | none =>
    dsimp only
    split
    · exact h.undefined _
    · refine h.bind ha fun values => ?_
      split
      · exact h.gives _
      · exact h.fails (.notCallable callee)

theorem callBody (params : List String) {body body' : Run Value} (hb : S body body')
    (args : List Value) : R (callBody limit params body args) (callBody limit' params body' args) :=
  h.bind (h.charge 1) fun _ => h.within _ hb

end Names

/-! The induction follows the syntax; each construct is one of the rules above. -/

mutual

theorem eval (h : CodeRelation R S limit limit') : ∀ e : Expr, R (eval limit e) (eval limit' e)
  | .float _ | .integer _ | .string _ | .boolean _ | .null => h.charged 1 _
  | .identifier name => h.bind (h.charge 1) fun _ => h.readName name
  | .member object name => by
    rw [Script.eval, Script.eval]
    refine h.bind (h.charge 1) fun _ => h.bind (h.globalOf? object) fun g => ?_
    have drawn := h.bind (h.eval object) fun v => h.member v name
    rcases g with _ | g
    · exact drawn
    · cases g
      case math => exact h.gives _
      all_goals exact drawn
  | .index object key =>
    h.bind (h.charge 1) fun _ => h.bind (h.eval object) fun _ => h.bind (h.eval key) fun _ => h.index _ _
  | .unary op operand =>
    h.bind (h.charge 1) fun _ => h.bind (h.eval operand) fun _ => h.gives _
  | .binary op left right => by
    rw [Script.eval, Script.eval]
    refine h.bind (h.charge 1) fun _ => h.bind (h.eval left) fun a => ?_
    cases op with
    | logic op => exact related_ite (h.gives _) (h.eval right)
    | arith op => exact h.bind (h.eval right) fun b => h.arithmetic op a b
    | comparison op => exact h.bind (h.eval right) fun b => h.gives _
  | .conditional condition yes no =>
    h.bind (h.charge 1) fun _ => h.bind (h.eval condition) fun _ => related_ite (h.eval yes) (h.eval no)
  | .call callee args =>
    h.bind (h.charge 1) fun _ => h.callName callee (h.evalAll args [])
  | .methodCall object method args => by
    rw [Script.eval, Script.eval]
    refine h.bind (h.charge 1) fun _ => h.bind (h.globalOf? object) fun g => ?_
    cases g with
    | some g => exact h.callGlobalMethod g method (h.evalAll args [])
    | none =>
      refine h.bind (h.eval object) fun target => ?_
      exact h.callMethod target method (h.callbackOf? args) (h.startOf? args) (h.evalAll args [])
  | .function _ _ => h.bind (h.charge 1) fun _ => h.fault _
  | .object fields =>
    h.bind (h.charge 1) fun _ => h.bind (h.evalFields fields []) fun _ => h.gives _
  | .array items =>
    h.bind (h.charge 1) fun _ => h.bind (h.evalAll items []) fun _ => h.gives _

theorem callbackOf? (h : CodeRelation R S limit limit') : ∀ args : List Expr,
    Option.Rel (Callback.Related R) (callbackOf? limit args) (callbackOf? limit' args)
  | .function params body :: _ => .some ⟨rfl, fun _ => h.callBody params (h.perform body) _⟩
  | [] => .none
  | .float _ :: _ | .integer _ :: _ | .string _ :: _ | .boolean _ :: _ | .null :: _
  | .identifier _ :: _ | .member _ _ :: _ | .index _ _ :: _ | .unary _ _ :: _
  | .binary _ _ _ :: _ | .conditional _ _ _ :: _ | .call _ _ :: _ | .methodCall _ _ _ :: _
  | .object _ :: _ | .array _ :: _ => .none

theorem startOf? (h : CodeRelation R S limit limit') : ∀ args : List Expr,
    Option.Rel R (startOf? limit args) (startOf? limit' args)
  | [] | [_] => .none
  | _ :: start :: _ => .some (h.eval start)

theorem evalAll (h : CodeRelation R S limit limit') : ∀ (es : List Expr) (done : List Value),
    R (evalAll limit done es) (evalAll limit' done es)
  | [], _ => h.gives _
  | e :: es, done => h.bind (h.eval e) fun v => h.evalAll es (v :: done)

theorem evalFields (h : CodeRelation R S limit limit') :
    ∀ (fields : List (String × Expr)) (done : Entries Value),
    R (evalFields limit done fields) (evalFields limit' done fields)
  | [], _ => h.gives _
  | (name, e) :: fields, done => h.bind (h.eval e) fun v => h.evalFields fields (done.insert name v)

theorem perform (h : CodeRelation R S limit limit') : ∀ body : Body,
    S (perform limit body) (perform limit' body)
  | .expr e => h.inside (h.eval e)
  | .block statements => h.runStatements statements

theorem runStatements (h : CodeRelation R S limit limit') : ∀ statements : List Statement,
    S (runStatements limit statements) (runStatements limit' statements)
  | [] => h.inside (h.gives _)
  | .declare name e :: rest =>
    h.bind_inside (h.charge 1) fun _ => h.bind_inside (h.eval e) fun v =>
      h.declare name v (h.runStatements rest)
  | .give e :: _ => h.inside (h.bind (h.charge 1) fun _ => h.eval e)
  | .expression e :: rest =>
    h.bind_inside (h.charge 1) fun _ => h.bind_inside (h.eval e) fun _ => h.runStatements rest

end

/-- A function called under two limits. -/
theorem call (h : CodeRelation R S limit limit') (f : Lambda) (args : List Value) :
    R (call limit f args) (call limit' f args) :=
  h.callBody f.params (h.perform f.body) args

end CodeRelation

end LiveNotes.Script
