import LiveNotes.Proofs.Script.Charges
import LiveNotes.Proofs.Script.Literals
import LiveNotes.Proofs.Value.Arithmetic

/-!
What the expressions of a script pay for. Two calls build a value that no step pays for: `replaceAll`,
which can multiply the sizes of two texts, and `JSON.parse`. Everything else is covered by the steps
charged on the way to it and by the texts that the script carries.

* `Expr.metered`: no call in an expression is one of the two;
* `Expr.Earns`: what an expression gives is covered; `earns_member`, …: a rule for each construct;
* `eval_pays`, `perform_pays`: it is so of every metered expression and body, by induction on the syntax.
-/

namespace LiveNotes.Script

open Number Text Value

/-! ### Metered expressions -/

/-- Whether a method call builds something that no step pays for. -/
def unmetered (target : Expr) (method : String) : Bool :=
  method == "replaceAll" || (method == "parse" && match target with
    | .identifier name => name == "JSON"
    | _ => false)

mutual

/-- Whether every call in an expression is paid for. -/
def Expr.metered : Expr → Bool
  | .member target _ => target.metered
  | .index target key => target.metered && key.metered
  | .unary _ operand => operand.metered
  | .binary _ left right => left.metered && right.metered
  | .conditional condition yes no => condition.metered && yes.metered && no.metered
  | .call _ args => allMetered args
  | .methodCall target method args => !unmetered target method && target.metered && allMetered args
  | .function _ body => body.metered
  | .object fields => fieldsMetered fields
  | .array items => allMetered items
  | _ => true

/-- Whether every call in the body of a function is paid for. -/
def Body.metered : Body → Bool
  | .expr e => e.metered
  | .block statements => blockMetered statements

/-- Whether every call in a statement is paid for. -/
def Statement.metered : Statement → Bool
  | .declare _ value => value.metered
  | .give value => value.metered
  | .expression e => e.metered

/-- Whether every call in some expressions is paid for. -/
def allMetered : List Expr → Bool
  | [] => true
  | e :: es => e.metered && allMetered es

/-- Whether every call in the values of some fields is paid for. -/
def fieldsMetered : List (String × Expr) → Bool
  | [] => true
  | (_, e) :: fields => e.metered && fieldsMetered fields

/-- Whether every call in some statements is paid for. -/
def blockMetered : List Statement → Bool
  | [] => true
  | s :: ss => s.metered && blockMetered ss

end

/-! ### Members, names and operators -/

section Parts

variable {unit limit : Nat}

theorem worth_mathConstant (name : String) : worth unit (mathConstant name) = longestText := by
  unfold mathConstant
  repeat' split
  all_goals rfl

theorem pays_globalOf? (e : Expr) : Pays unit limit (globalOf? e) fun p g =>
    p = 0 ∧ ∀ g', g = some g' → ∃ name, e = .identifier name ∧ Global.ofName? name = some g' := by
  unfold globalOf?
  split
  · next name =>
    refine (pays_lookup? name).bind fun p found hp => ?_
    subst hp
    cases found with
    | some v => exact pays_pure ⟨rfl, fun _ h => by cases h⟩
    | none => exact pays_pure ⟨rfl, fun g' h => ⟨name, rfl, h⟩⟩
  · exact pays_pure ⟨rfl, fun _ h => by cases h⟩

theorem pays_member (target : Value) (name : String) : Pays unit limit (member target name)
    fun p v => p = 0 ∧ worth unit v ≤ max longestText (worth unit target) := by
  unfold member
  split
  · exact pays_fault _
  · next entries =>
    refine pays_pure ⟨rfl, ?_⟩
    cases h : Entries.get? entries name with
    | none => exact Nat.le_max_left _ _
    | some v => exact Nat.le_trans (worth_get? unit h) (Nat.le_max_right _ _)
  · refine pays_pure ⟨rfl, ?_⟩
    split <;> exact Nat.le_max_left _ _
  · refine pays_pure ⟨rfl, ?_⟩
    split <;> exact Nat.le_max_left _ _
  · exact pays_pure ⟨rfl, Nat.le_max_left _ _⟩

theorem pays_index (target key : Value) : Pays unit limit (index target key)
    fun p v => p = 0 ∧ worth unit v ≤ max longestText (worth unit target) := by
  unfold index
  split
  · next items =>
    refine .ite (fun _ => pays_pure ⟨rfl, ?_⟩) fun _ => pays_member _ _
    cases h : (offset? key).bind fun i => items[i]? with
    | none => exact Nat.le_max_left _ _
    | some v =>
      obtain ⟨i, -, hi⟩ := Option.bind_eq_some_iff.1 h
      exact Nat.le_trans (worth_le_of_mem unit (List.mem_of_getElem? hi)) (Nat.le_max_right _ _)
  · next s =>
    refine .ite (fun _ => pays_pure ⟨rfl, ?_⟩) fun _ => pays_member _ _
    split
    · next c h =>
      rw [worth_textValue]
      exact Nat.le_trans (weight_character h) (Nat.le_max_right _ _)
    · exact Nat.le_max_left _ _
  · exact pays_member _ _

theorem worth_of_isNumber {v : Value} (h : v.isNumber = true) : worth unit v = longestText := by
  cases v <;> cases h <;> rfl

theorem isNumber_ofFloat (x : Float) : (ofFloat x).isNumber = true := by
  unfold ofFloat
  split <;> rfl

theorem isNumber_toNumeric (v : Value) : v.toNumeric.isNumber = true := by
  unfold toNumeric
  split
  · rfl
  · rfl
  · exact isNumber_ofFloat _

theorem worth_numeric (op : Arith) (a b : Value) : worth unit (numeric op a b) = longestText := by
  unfold numeric
  dsimp only
  split
  · exact worth_of_isNumber (isNumber_arith ‹_›)
  · rfl

theorem worth_unary (op : UnaryOp) (v : Value) : worth unit (op.apply v) = longestText := by
  cases op with
  | not => rfl
  | plus => exact worth_of_isNumber (isNumber_toNumeric v)
  | negate =>
    unfold UnaryOp.apply negate
    dsimp only
    split
    · split <;> rfl
    · rfl
    · exact worth_of_isNumber (isNumber_ofFloat _)

variable (hc : limit < stepCap) (hu : longestText + 3 ≤ unit)
include hc hu

theorem pays_readName (name : String) : Pays unit limit (readName limit name)
    fun p v => worth unit v ≤ longestText + p := by
  unfold readName
  refine (pays_lookup? name).bind fun p found hp => ?_
  subst hp
  cases found with
  | some v =>
    refine (pays_chargeCopy hc v).bind fun p _ hp => pays_pure ?_
    have := worth_le unit hu v
    omega
  | none =>
    refine .ite (fun _ => pays_pure (Nat.le_refl _)) fun _ => .ite (fun _ => pays_pure (Nat.le_refl _))
      fun _ => .ite (fun _ => pays_fault _) fun _ => pays_throw _

theorem pays_arithmetic (op : Arith) (a b : Value) : Pays unit limit (arithmetic limit op a b)
    fun p v => worth unit v ≤ longestText + p := by
  unfold arithmetic
  refine .ite (fun _ => pays_charged hc ?_) fun _ => pays_pure ?_
  · have := weight_le_paid unit (by omega) (a.toText ++ b.toText)
    rw [String.utf8ByteSize_append] at this
    rw [worth]
    omega
  · rw [worth_numeric]
    omega

end Parts

/-! ### Calls -/

section Calls

variable (unit : Nat)

theorem isNumber_readInteger (s : List Char) (radix : Int64) : (readInteger s radix).isNumber = true := by
  unfold readInteger
  dsimp only
  repeat' split
  all_goals rfl

theorem worth_globalCall {g : Global} {args : List Value} {v : Value} (h : g.call? args = some v) :
    worth unit v ≤ longestText + itemsWorth unit args := by
  have number {v : Value} (hv : v.isNumber = true) : worth unit v ≤ longestText + itemsWorth unit args := by
    rw [worth_of_isNumber hv]
    omega
  cases g with
  | string =>
    cases h
    cases args with
    | nil => exact Nat.zero_le _
    | cons v vs =>
      have := weight_toText unit v
      rw [List.head?_cons, Option.elim_some, worth, itemsWorth]
      omega
  | number =>
    cases h
    cases args with
    | nil => exact number rfl
    | cons v vs => exact number (isNumber_toNumeric v)
  | boolean => cases h; exact Nat.le_add_right _ _
  | parseInt => cases h; exact number (isNumber_readInteger _ _)
  | parseFloat => cases h; exact number (isNumber_ofFloat _)
  | math | json | object => cases h

/-- A member of a global gives a text, or a value drawn out of its arguments. -/
theorem worth_globalMethod (hu : 21 ≤ unit) {g : Global} {name : String} {args : List Value} {v : Value}
    (h : g.method name args = .ok v) (hp : ¬ (g = .json ∧ name = "parse"))
    (hl : ∀ items, args.headD .null = .array items → items.length ≤ tenTo 20) :
    (∃ s, v = .string s) ∨ worth unit v ≤ longestText + itemsWorth unit args := by
  have listed {parts : Value → List Value} (hnull : parts .null = [])
      (hparts : worth unit (.array (parts (args.headD .null))) ≤ worth unit (args.headD .null) + 42) :
      worth unit (.array (parts (args.headD .null))) ≤ longestText + itemsWorth unit args := by
    cases args with
    | nil =>
      rw [List.headD_nil, hnull]
      exact Nat.zero_le _
    | cons v vs =>
      have : 42 ≤ longestText := by decide
      rw [List.headD_cons] at *
      rw [itemsWorth]
      omega
  have number {v : Value} (hv : v.isNumber = true) : worth unit v ≤ longestText + itemsWorth unit args := by
    rw [worth_of_isNumber hv]
    omega
  unfold Global.method at h
  dsimp only at h
  split at h
  · split at h <;> cases h
    exact .inr (number (isNumber_ofFloat _))
  · cases h
    exact .inl ⟨_, rfl⟩
  · exact absurd ⟨rfl, rfl⟩ hp
  · cases h
    exact .inr (listed rfl (worth_objectKeys unit hu hl))
  · cases h
    exact .inr (listed rfl (Nat.le_trans (worth_objectValues unit _) (Nat.le_add_right _ _)))
  · cases h
    exact .inr (listed rfl (Nat.le_trans (worth_objectEntries unit _) (Nat.le_add_right _ _)))
  · cases h
    exact .inr (Nat.le_add_right _ _)
  · cases h
    exact .inr (Nat.le_add_right _ _)
  · cases h
    exact .inr (number (isNumber_ofFloat _))
  · cases h
    exact .inr (number (isNumber_readInteger _ _))
  · cases h

/-- Arguments as they are evaluated: each takes a step, and all are covered by their steps and the
texts in them. -/
def Covered (unit text p : Nat) (vs : List Value) : Prop :=
  unit * vs.length ≤ p ∧ itemsWorth unit vs ≤ 3 * text + p

variable {unit} {limit text : Nat} {args : Run (List Value)} (ha : Pays unit limit args (Covered unit text))
include ha

theorem pays_callName (callee : String) : Pays unit limit (callName callee args)
    fun p v => worth unit v ≤ longestText + 3 * text + p := by
  unfold callName
  refine (pays_lookup? callee).bind fun p found hp => ?_
  subst hp
  cases found with
  | some v => exact pays_throw _
  | none =>
    dsimp only
    split
    · exact pays_throw _
    · refine ha.bind fun p vs hvs => ?_
      split
      · next v hv =>
        have := worth_globalCall unit hv
        have := hvs.2
        exact pays_pure (by omega)
      · exact pays_throw _

variable (hc : limit < stepCap)
include hc

theorem pays_callGlobalMethod (hu : text + 1000 ≤ unit) (g : Global) (method : String)
    (hp : ¬ (g = .json ∧ method = "parse")) : Pays unit limit (callGlobalMethod limit g method args)
      fun p v => worth unit v ≤ longestText + 3 * text + p := by
  unfold callGlobalMethod
  refine ha.bounded.bind fun p vs hvs => ?_
  obtain ⟨hlimit, -, hw⟩ := hvs
  -- an array among the arguments has no more items than steps were charged, but for a few
  have hl : ∀ items, vs.headD .null = .array items → items.length ≤ tenTo 20 := by
    intro items hi
    cases vs with
    | nil => cases hi
    | cons v vs =>
      rw [List.headD_cons] at hi
      have hitems : unit * (items.length - 2) ≤ unit * (limit + 3) := by
        rw [hi, itemsWorth, worth] at hw
        rw [Nat.mul_add]
        omega
      have := Nat.le_of_mul_le_mul_left hitems (by omega)
      have : stepCap + 5 ≤ tenTo 20 := by decide
      omega
  split
  · exact pays_throw _
  · next s _ =>
    refine pays_charged hc ?_
    have := weight_le_paid unit (by omega) s
    rw [worth]
    omega
  · next v hn hv =>
    rcases worth_globalMethod unit (by omega) hv hp hl with ⟨s, rfl⟩ | hw'
    · exact absurd rfl (hn s)
    · exact pays_pure (by omega)

theorem pays_callPlainMethod (hu : longestText + 3 ≤ unit) (target : Value) (method : String)
    (hm : method ≠ "replaceAll") : Pays unit limit (callPlainMethod limit target method args)
      fun p v => worth unit v ≤ longestText + worth unit target + 3 * text + p := by
  unfold callPlainMethod
  dsimp only
  split
  · next s =>
    refine ha.bind fun p vs hvs => ?_
    split
    · next m hofName =>
      have hne : m ≠ .replaceAll := by
        rintro rfl
        unfold TextMethod.ofName? at hofName
        split at hofName
        all_goals first | exact hm rfl | cases hofName
      have := hvs.2
      exact (pays_textMethod hc hu s vs hne).imp fun q v hv => by rw [worth]; omega
    · exact pays_throw _
  · next items =>
    refine ha.bind fun p vs hvs => ?_
    split
    · next m _ =>
      obtain ⟨hlength, hw⟩ := hvs
      exact (pays_arrayMethod hc hu items vs m).imp fun q v hv => by omega
    · exact pays_throw _
  · next n =>
    refine ha.bind fun p vs hvs => ?_
    split
    · next m _ =>
      have := @worth_numberMethod unit (.integer n) vs m rfl
      exact pays_pure (by omega)
    · exact pays_throw _
  · next x =>
    refine ha.bind fun p vs hvs => ?_
    split
    · next m _ =>
      have := @worth_numberMethod unit (.float x) vs m rfl
      exact pays_pure (by omega)
    · exact pays_throw _
  · next b =>
    refine .ite (fun _ => pays_pure ?_) fun _ => pays_throw _
    have := weight_toText unit (.boolean b)
    rw [worth]
    omega
  · exact pays_fault _
  · exact pays_throw _

theorem pays_callMethod (hu : longestText + 3 ≤ unit) (target : Value) {method : String}
    (hm : method ≠ "replaceAll") {excess startWorth : Nat} (he : excess ≤ unit) {f : Option Callback}
    (hf : ∀ f', f = some f' → f'.Pays unit limit excess) {start : Option (Run Value)}
    (hs : ∀ r, start = some r → Pays unit limit r fun p v => worth unit v ≤ startWorth + p) :
    Pays unit limit (callMethod limit target method f start args) fun p v => worth unit v ≤
      longestText + worth unit target + max (3 * text) (2 * excess + startWorth) + p := by
  unfold callMethod
  split
  · next items m _ =>
    split
    · next f' =>
      exact (pays_itemMethod hc (hf f' rfl) he items hs m).imp fun p v hv => by omega
    · exact pays_fault _
  · exact (pays_callPlainMethod ha hc hu _ method hm).imp fun p v hv => by omega

end Calls

/-! ### Evaluation -/

section Evaluation

/-- What an expression gives is covered by the steps that it took, at least one, and by the texts in
it: short of a step and of the text of a number, which the step that uses the value makes up for. -/
def Earned (unit text p : Nat) (v : Value) : Prop :=
  unit ≤ p ∧ worth unit v + unit ≤ longestText + 3 * text + p

/-- What a body gives; one that runs no statement took no step. -/
def Given (unit text p : Nat) (v : Value) : Prop := worth unit v ≤ longestText + (3 * text + p - unit)

/-- What the call of a function can give beyond the steps that it took. -/
def excess (unit text : Nat) : Nat := 3 * text + (longestText + 1) - 2 * unit

/-- The bytes of the texts in the function that stands first among arguments. -/
def callbackBytes : List Expr → Nat
  | e :: _ => e.textBytes
  | [] => 0

/-- The bytes of the texts in the start of a fold. -/
def startBytes : List Expr → Nat
  | _ :: e :: _ => e.textBytes
  | _ => 0

theorem callbackBytes_add_startBytes_le (args : List Expr) :
    callbackBytes args + startBytes args ≤ textBytesOfAll args := by
  rcases args with _ | ⟨e, _ | ⟨e', es⟩⟩
  · exact Nat.le_refl _
  · exact Nat.le_refl _
  · simp only [callbackBytes, startBytes, textBytesOfAll]
    omega

variable {unit limit : Nat}

/-- A step has room for the text of a number. -/
theorem longestText_add_le {text : Nat} (hu : text + 1000 ≤ unit) : longestText + 3 ≤ unit := by
  have : longestText = 655 := rfl
  omega

theorem Earned.given {text p : Nat} {v : Value} (h : Earned unit text p v) : Given unit text p v := by
  obtain ⟨h1, h2⟩ := h
  unfold Given
  omega

variable (hc : limit < stepCap)
include hc

/-- A step and then a run. -/
theorem pays_step {α : Type} {r : Run α} {post : Nat → α → Prop}
    (h : Pays unit limit r fun p v => post (unit + p) v) :
    Pays unit limit (do charge limit 1; r) post :=
  (pays_charge hc 1).bind fun p _ hp => by rwa [hp, Nat.mul_one]

theorem pays_literal {v : Value} {text : Nat} (hv : worth unit v ≤ longestText + 3 * text) :
    Pays unit limit (do charge limit 1; return v) (Earned unit text) :=
  pays_step hc (pays_pure ⟨Nat.le_refl _, by omega⟩)

theorem pays_callBody {params : List String} {body : Run Value} {text : Nat}
    (h : Pays unit limit body (Given unit text)) (hu : text + 1000 ≤ unit) (args : List Value) :
    Pays unit limit (callBody limit params body args)
      fun p v => 1 + worth unit v ≤ p + excess unit text := by
  unfold callBody
  refine pays_step hc ((h.within _).imp fun p v hv => ?_)
  have : longestText = 655 := rfl
  unfold Given at hv
  unfold excess
  omega

end Evaluation

/-! ### Expressions

What an expression, a list of them or a body pays for, given that its parts pay. -/

/-- What an expression gives is paid for. -/
def Expr.Earns (unit limit : Nat) (e : Expr) : Prop :=
  Pays unit limit (eval limit e) (Earned unit e.textBytes)

/-- The values of some expressions are paid for, beyond the values that were there. -/
def AllEarn (unit limit : Nat) (es : List Expr) : Prop :=
  ∀ done : List Value, Pays unit limit (evalAll limit done es) fun p vs =>
    unit * vs.length ≤ unit * done.length + p ∧
      itemsWorth unit vs ≤ itemsWorth unit done + 3 * textBytesOfAll es + p

/-- The values of some fields are paid for, beyond the entries that were there. -/
def FieldsEarn (unit limit : Nat) (fields : List (String × Expr)) : Prop :=
  ∀ done : Entries Value, Pays unit limit (evalFields limit done fields) fun p es =>
    unit * es.length ≤ unit * done.length + p ∧
      entriesWorth unit es ≤ entriesWorth unit done + 3 * textBytesOfFields fields + p

/-- What some statements give is paid for. -/
def BlockGives (unit limit : Nat) (statements : List Statement) : Prop :=
  Pays unit limit (runStatements limit statements) (Given unit (textBytesOfBlock statements))

section Constructs

variable {unit limit : Nat} {target key e : Expr} {es : List Expr} {fields : List (String × Expr)}
  {rest : List Statement}

/-- Arguments that stand alone. -/
theorem AllEarn.covered (h : AllEarn unit limit es) :
    Pays unit limit (evalAll limit [] es) (Covered unit (textBytesOfAll es)) := by
  refine (h []).imp fun p vs hvs => ?_
  simp only [List.length_nil, Nat.mul_zero, Nat.zero_add, itemsWorth] at hvs
  exact hvs

theorem allEarn_nil : AllEarn unit limit [] := by
  refine fun done => pays_pure ⟨by simp, ?_⟩
  rw [itemsWorth_reverse]
  omega

theorem AllEarn.cons (hu : longestText + 3 ≤ unit) (h : e.Earns unit limit)
    (hes : AllEarn unit limit es) : AllEarn unit limit (e :: es) := by
  refine fun done => h.bind fun p v hv => (hes (v :: done)).imp fun q vs hvs => ?_
  unfold Earned at hv
  rw [itemsWorth, List.length_cons, Nat.mul_succ] at hvs
  rw [textBytesOfAll]
  omega

theorem fieldsEarn_nil : FieldsEarn unit limit [] :=
  fun _ => pays_pure ⟨Nat.le_refl _, Nat.le_refl _⟩

theorem FieldsEarn.cons (hu : longestText + 3 ≤ unit) (name : String) (h : e.Earns unit limit)
    (hf : FieldsEarn unit limit fields) : FieldsEarn unit limit ((name, e) :: fields) := by
  refine fun done => h.bind fun p v hv => (hf (done.insert name v)).imp fun q es hes => ?_
  have := Nat.mul_le_mul_left unit (length_insert_le done name v)
  have := entriesWorth_insert unit done name v
  have := weight_le_size name
  unfold Earned at hv
  rw [textBytesOfFields]
  rw [Nat.mul_succ] at *
  omega

variable (hc : limit < stepCap)
include hc

theorem earns_identifier (hu : longestText + 3 ≤ unit) (name : String) :
    (Expr.identifier name).Earns unit limit :=
  pays_step hc ((pays_readName hc hu name).imp fun p v hv => ⟨by omega, by omega⟩)

theorem earns_member (h : target.Earns unit limit) (name : String) :
    (Expr.member target name).Earns unit limit := by
  unfold Expr.Earns
  rw [Expr.textBytes, eval]
  refine pays_step hc ((pays_globalOf? target).bind fun p g hg => ?_)
  obtain ⟨rfl, -⟩ := hg
  -- only `Math` has members of its own, all others are read as values
  have drawn : Pays unit limit (do member (← eval limit target) name) fun p v =>
      Earned unit target.textBytes (unit + (0 + p)) v := by
    refine h.bind fun p t ht => (pays_member t name).imp fun q v hv => ?_
    unfold Earned at *
    omega
  rcases g with _ | g
  · exact drawn
  · cases g
    case math =>
      refine pays_pure ⟨by omega, ?_⟩
      rw [worth_mathConstant]
      omega
    all_goals exact drawn

theorem earns_index (h : target.Earns unit limit) (h' : key.Earns unit limit) :
    (Expr.index target key).Earns unit limit := by
  refine pays_step hc (h.bind fun p t ht => h'.bind fun q k hk => ?_)
  refine (pays_index t k).imp fun r v hv => ?_
  rw [Expr.textBytes]
  unfold Earned at *
  omega

theorem earns_unary (op : UnaryOp) (h : e.Earns unit limit) : (Expr.unary op e).Earns unit limit := by
  refine pays_step hc (h.bind fun p v hv => pays_pure ?_)
  rw [Expr.textBytes]
  unfold Earned at *
  rw [worth_unary]
  omega

theorem earns_binary (hu : longestText + 3 ≤ unit) {left right : Expr} (op : BinaryOp)
    (h : left.Earns unit limit) (h' : right.Earns unit limit) :
    (Expr.binary op left right).Earns unit limit := by
  unfold Expr.Earns
  rw [Expr.textBytes, eval]
  refine pays_step hc (h.bind fun p a ha => ?_)
  cases op with
  | logic op =>
    refine .ite (fun _ => pays_pure ?_) fun _ => h'.imp fun q v hv => ?_
    all_goals
      unfold Earned at *
      omega
  | arith op =>
    refine h'.bind fun q b hb => (pays_arithmetic hc hu op a b).imp fun r v hv => ?_
    unfold Earned at *
    omega
  | comparison op =>
    refine h'.bind fun q b hb => pays_pure ?_
    have hworth : worth unit (.boolean (op.holds a b)) = longestText := rfl
    unfold Earned at *
    omega

theorem earns_conditional {condition yes no : Expr} (h : condition.Earns unit limit)
    (hy : yes.Earns unit limit) (hn : no.Earns unit limit) :
    (Expr.conditional condition yes no).Earns unit limit := by
  unfold Expr.Earns
  rw [Expr.textBytes]
  refine pays_step hc (h.bind fun p t ht => ?_)
  refine .ite (fun _ => hy.imp fun q v hv => ?_) fun _ => hn.imp fun q v hv => ?_
  all_goals
    unfold Earned at *
    omega

theorem earns_call (callee : String) (h : AllEarn unit limit es) :
    (Expr.call callee es).Earns unit limit := by
  refine pays_step hc ((pays_callName h.covered callee).imp fun p v hv => ?_)
  rw [Expr.textBytes]
  unfold Earned
  omega

/-- A method of a global is called. -/
theorem pays_methodOfGlobal (hu : textBytesOfAll es + 1000 ≤ unit) {method : String} {g : Global}
    (hm : unmetered target method = false)
    (hg : ∃ name, target = .identifier name ∧ Global.ofName? name = some g) (h : AllEarn unit limit es) :
    Pays unit limit (callGlobalMethod limit g method (evalAll limit [] es)) fun p v =>
      Earned unit (target.textBytes + textBytesOfAll es) (unit + p) v := by
  obtain ⟨name, rfl, hname⟩ := hg
  refine (pays_callGlobalMethod h.covered hc hu g method ?_).imp fun p v hv => ?_
  · rintro ⟨rfl, rfl⟩
    have hjson := List.find?_some hname
    rw [← beq_iff_eq.1 hjson] at hm
    cases hm
  · unfold Earned
    omega

/-- A method of a value is called. A call of the function written first can give the texts in it again
for each item, and of that no more than `excess` is left unpaid. -/
theorem pays_methodOfValue (hu : textBytesOfAll es + 1000 ≤ unit) {method : String}
    (hm : unmetered target method = false) (ht : target.Earns unit limit) (h : AllEarn unit limit es)
    (hf : ∀ f, callbackOf? limit es = some f → f.Pays unit limit (excess unit (callbackBytes es)))
    (hs : ∀ r, startOf? limit es = some r →
      Pays unit limit r fun p v => worth unit v ≤ 3 * startBytes es + p) :
    Pays unit limit (do
      let t ← eval limit target
      callMethod limit t method (callbackOf? limit es) (startOf? limit es) (evalAll limit [] es))
      fun p v => Earned unit (target.textBytes + textBytesOfAll es) (unit + p) v := by
  have hsum := callbackBytes_add_startBytes_le es
  have hreplace : method ≠ "replaceAll" := by
    rintro rfl
    cases hm
  have hlongest : longestText = 655 := rfl
  have hex : excess unit (callbackBytes es) ≤ unit := by
    unfold excess
    omega
  refine ht.bind fun p t ht => ?_
  refine (pays_callMethod h.covered hc (longestText_add_le hu) t hreplace hex hf hs).imp fun q v hv => ?_
  unfold Earned excess at *
  omega

theorem earns_methodCall (hu : textBytesOfAll es + 1000 ≤ unit) {method : String}
    (hm : unmetered target method = false) (ht : target.Earns unit limit) (h : AllEarn unit limit es)
    (hf : ∀ f, callbackOf? limit es = some f → f.Pays unit limit (excess unit (callbackBytes es)))
    (hs : ∀ r, startOf? limit es = some r →
      Pays unit limit r fun p v => worth unit v ≤ 3 * startBytes es + p) :
    (Expr.methodCall target method es).Earns unit limit := by
  unfold Expr.Earns
  rw [Expr.textBytes, eval]
  refine pays_step hc ((pays_globalOf? target).bind fun p g hg => ?_)
  obtain ⟨rfl, hg⟩ := hg
  simp only [Nat.zero_add]
  cases g with
  | some g => exact pays_methodOfGlobal hc hu hm (hg g rfl) h
  | none => exact pays_methodOfValue hc hu hm ht h hf hs

theorem earns_object (hf : FieldsEarn unit limit fields) : (Expr.object fields).Earns unit limit := by
  refine pays_step hc ((hf []).bind fun p es hes => pays_pure ?_)
  simp only [List.length_nil, Nat.mul_zero, entriesWorth] at hes
  unfold Earned
  rw [worth, Expr.textBytes]
  omega

theorem earns_array (h : AllEarn unit limit es) : (Expr.array es).Earns unit limit := by
  refine pays_step hc (h.covered.bind fun p vs hvs => pays_pure ?_)
  obtain ⟨hlength, hw⟩ := hvs
  have := Nat.mul_le_mul_left unit (Nat.sub_le vs.length 2)
  unfold Earned
  rw [worth, Expr.textBytes]
  omega

theorem blockGives_declare (name : String) (h : e.Earns unit limit) (hr : BlockGives unit limit rest) :
    BlockGives unit limit (.declare name e :: rest) := by
  refine pays_step hc (h.bind fun p v _ => (pays_declare name v).bind fun q _ hq => ?_)
  refine hr.imp fun r v hv => ?_
  rw [textBytesOfBlock, Statement.textBytes]
  unfold Given at *
  omega

theorem blockGives_give (rest : List Statement) (h : e.Earns unit limit) :
    BlockGives unit limit (.give e :: rest) := by
  refine pays_step hc (h.imp fun p v hv => ?_)
  rw [textBytesOfBlock, Statement.textBytes]
  unfold Given Earned at *
  omega

theorem blockGives_expression (h : e.Earns unit limit) (hr : BlockGives unit limit rest) :
    BlockGives unit limit (.expression e :: rest) := by
  refine pays_step hc (h.bind fun p _ _ => hr.imp fun r v hv => ?_)
  rw [textBytesOfBlock, Statement.textBytes]
  unfold Given at *
  omega

end Constructs

/-! ### Everything that is evaluated -/

section Metered

variable {unit limit : Nat}

mutual

theorem eval_pays (hc : limit < stepCap) : ∀ e : Expr, e.metered = true → e.textBytes + 1000 ≤ unit →
    e.Earns unit limit
  | .float _, _, _ | .integer _, _, _ | .boolean _, _, _ | .null, _, _ =>
    pays_literal hc (Nat.le_refl _)
  | .string s, _, _ => by
    refine pays_literal hc ?_
    have := weight_le_size s
    rw [worth, Expr.textBytes]
    omega
  | .identifier name, _, hu => earns_identifier hc (longestText_add_le hu) name
  | .member target name, hm, hu => by
    rw [Expr.metered] at hm
    rw [Expr.textBytes] at hu
    exact earns_member hc (eval_pays hc target hm hu) name
  | .index target key, hm, hu => by
    simp only [Expr.metered, Bool.and_eq_true] at hm
    rw [Expr.textBytes] at hu
    exact earns_index hc (eval_pays hc target hm.1 (by omega)) (eval_pays hc key hm.2 (by omega))
  | .unary op operand, hm, hu => by
    rw [Expr.metered] at hm
    rw [Expr.textBytes] at hu
    exact earns_unary hc op (eval_pays hc operand hm hu)
  | .binary op left right, hm, hu => by
    simp only [Expr.metered, Bool.and_eq_true] at hm
    rw [Expr.textBytes] at hu
    exact earns_binary hc (longestText_add_le hu) op (eval_pays hc left hm.1 (by omega))
      (eval_pays hc right hm.2 (by omega))
  | .conditional condition yes no, hm, hu => by
    simp only [Expr.metered, Bool.and_eq_true] at hm
    rw [Expr.textBytes] at hu
    exact earns_conditional hc (eval_pays hc condition hm.1.1 (by omega))
      (eval_pays hc yes hm.1.2 (by omega)) (eval_pays hc no hm.2 (by omega))
  | .call callee args, hm, hu => by
    rw [Expr.metered] at hm
    rw [Expr.textBytes] at hu
    exact earns_call hc callee (evalAll_pays hc args hm hu)
  | .methodCall target method args, hm, hu => by
    simp only [Expr.metered, Bool.and_eq_true, Bool.not_eq_true'] at hm
    obtain ⟨⟨hmethod, htarget⟩, hargs⟩ := hm
    rw [Expr.textBytes] at hu
    have := callbackBytes_add_startBytes_le args
    exact earns_methodCall hc (by omega) hmethod (eval_pays hc target htarget (by omega))
      (evalAll_pays hc args hargs (by omega)) (callbackOf?_pays hc args hargs (by omega))
      (startOf?_pays hc args hargs (by omega))
  | .function _ _, _, _ => pays_step hc (pays_fault _)
  | .object fields, hm, hu => by
    rw [Expr.metered] at hm
    rw [Expr.textBytes] at hu
    exact earns_object hc (evalFields_pays hc fields hm hu)
  | .array items, hm, hu => by
    rw [Expr.metered] at hm
    rw [Expr.textBytes] at hu
    exact earns_array hc (evalAll_pays hc items hm hu)

theorem callbackOf?_pays (hc : limit < stepCap) : ∀ args : List Expr, allMetered args = true →
    callbackBytes args + 1000 ≤ unit → ∀ f, callbackOf? limit args = some f →
    f.Pays unit limit (excess unit (callbackBytes args))
  | .function params body :: es, hm, hu, f, h => by
    cases h
    simp only [allMetered, Expr.metered, Bool.and_eq_true] at hm
    exact pays_callBody hc (perform_pays hc body hm.1 hu) hu
  | [], _, _, _, h => by cases h
  | .float _ :: _, _, _, _, h | .integer _ :: _, _, _, _, h | .string _ :: _, _, _, _, h
  | .boolean _ :: _, _, _, _, h | .null :: _, _, _, _, h | .identifier _ :: _, _, _, _, h
  | .member _ _ :: _, _, _, _, h | .index _ _ :: _, _, _, _, h | .unary _ _ :: _, _, _, _, h
  | .binary _ _ _ :: _, _, _, _, h | .conditional _ _ _ :: _, _, _, _, h | .call _ _ :: _, _, _, _, h
  | .methodCall _ _ _ :: _, _, _, _, h | .object _ :: _, _, _, _, h | .array _ :: _, _, _, _, h => by
    cases h

theorem startOf?_pays (hc : limit < stepCap) : ∀ args : List Expr, allMetered args = true →
    startBytes args + 1000 ≤ unit → ∀ r, startOf? limit args = some r →
    Pays unit limit r fun p v => worth unit v ≤ 3 * startBytes args + p
  | [], _, _, _, h | [_], _, _, _, h => by cases h
  | _ :: start :: es, hm, hu, r, h => by
    cases h
    simp only [allMetered, Bool.and_eq_true] at hm
    refine (eval_pays hc start hm.2.1 hu).imp fun p v hv => ?_
    have : longestText = 655 := rfl
    unfold Earned at hv
    simp only [startBytes] at *
    omega

theorem evalAll_pays (hc : limit < stepCap) : ∀ es : List Expr, allMetered es = true →
    textBytesOfAll es + 1000 ≤ unit → AllEarn unit limit es
  | [], _, _ => allEarn_nil
  | e :: es, hm, hu => by
    simp only [allMetered, Bool.and_eq_true] at hm
    rw [textBytesOfAll] at hu
    exact .cons (longestText_add_le hu) (eval_pays hc e hm.1 (by omega))
      (evalAll_pays hc es hm.2 (by omega))

theorem evalFields_pays (hc : limit < stepCap) : ∀ fields : List (String × Expr),
    fieldsMetered fields = true → textBytesOfFields fields + 1000 ≤ unit → FieldsEarn unit limit fields
  | [], _, _ => fieldsEarn_nil
  | (name, e) :: fields, hm, hu => by
    simp only [fieldsMetered, Bool.and_eq_true] at hm
    rw [textBytesOfFields] at hu
    exact .cons (longestText_add_le hu) name (eval_pays hc e hm.1 (by omega))
      (evalFields_pays hc fields hm.2 (by omega))

theorem perform_pays (hc : limit < stepCap) : ∀ body : Body, body.metered = true →
    body.textBytes + 1000 ≤ unit → Pays unit limit (perform limit body) (Given unit body.textBytes)
  | .expr e, hm, hu => (eval_pays hc e hm hu).imp fun _ _ h => h.given
  | .block statements, hm, hu => runStatements_pays hc statements hm hu

theorem runStatements_pays (hc : limit < stepCap) : ∀ statements : List Statement,
    blockMetered statements = true → textBytesOfBlock statements + 1000 ≤ unit →
    BlockGives unit limit statements
  | [], _, _ => pays_pure (Nat.le_add_right _ _)
  | .declare name e :: rest, hm, hu => by
    simp only [blockMetered, Statement.metered, Bool.and_eq_true] at hm
    rw [textBytesOfBlock, Statement.textBytes] at hu
    exact blockGives_declare hc name (eval_pays hc e hm.1 (by omega))
      (runStatements_pays hc rest hm.2 (by omega))
  | .give e :: rest, hm, hu => by
    simp only [blockMetered, Statement.metered, Bool.and_eq_true] at hm
    rw [textBytesOfBlock, Statement.textBytes] at hu
    exact blockGives_give hc rest (eval_pays hc e hm.1 (by omega))
  | .expression e :: rest, hm, hu => by
    simp only [blockMetered, Statement.metered, Bool.and_eq_true] at hm
    rw [textBytesOfBlock, Statement.textBytes] at hu
    exact blockGives_expression hc (eval_pays hc e hm.1 (by omega))
      (runStatements_pays hc rest hm.2 (by omega))

end

end Metered

end LiveNotes.Script
