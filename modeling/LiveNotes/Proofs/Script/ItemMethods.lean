import LiveNotes.Proofs.Script.Expressions

/-!
The methods of an array that take a function do what the functions on lists do, on what the function gives
when it is called alone on one item after the other. What it gives on an item does not hang on the calls
before, since they leave the frames as they were.

* `callOnItem`, `callOnResult`: a function called alone;
* `Results`: what a function gives on the first items;
* `unlimited_mapItems`, `unlimited_filterItems`, `unlimited_firstWhere`, `unlimited_foldItems`: each loop,
  behind the items whose results are known;
* `ItemMethod.counterpart?`, `ItemMethod.decided`: what a method should give, and whether the results so
  far decide it;
* `methodCall_counterpart`: what it does give, as an expression of a script.
-/

namespace LiveNotes.Script

/-! ### Functions called alone -/

/-- A function literal as a method sees it. -/
def Lambda.callback (f : Lambda) (limit : Nat) : Callback := ⟨f.arity, call limit f⟩

/-- A function called alone on an item of an array. Of the item, its position and the array it gets as
many as it has parameters for; the array is copied for that. -/
def callOnItem (f : Lambda) (items : List Value) (i : Nat) (item : Value) (limit : Nat) : Run Value := do
  if 2 < f.arity then chargeCopy limit (.array items)
  call limit f ([item, indexValue i, .array items].take f.arity)

/-- A function called alone on the result so far and an item of an array. -/
def callOnResult (f : Lambda) (items : List Value) (result : Value) (i : Nat) (item : Value)
    (limit : Nat) : Run Value := do
  if 3 < f.arity then chargeCopy limit (.array items)
  call limit f ([result, item, indexValue i, .array items].take f.arity)

/-- Arguments beyond the parameters do not count. -/
theorem bindParams_take (params : List String) (args : List Value) :
    bindParams params (args.take params.length) = bindParams params args := by
  have hzip : params.zip (args.take params.length ++
        List.replicate (params.length - (args.take params.length).length) .null) =
      params.zip (args ++ List.replicate (params.length - args.length) .null) := by
    induction params generalizing args with
    | nil => rfl
    | cons p params ih =>
      cases args with
      | nil => rfl
      | cons a args => simpa using ih args
  unfold bindParams
  rw [hzip]

theorem call_take (limit : Nat) (f : Lambda) (args : List Value) :
    call limit f (args.take f.arity) = call limit f args := by
  unfold call callBody Lambda.arity
  rw [bindParams_take]

/-- That is how a method calls the function. -/
theorem onItem_callback (f : Lambda) (limit : Nat) (items : List Value) :
    (f.callback limit).onItem limit items = fun i v => callOnItem f items i v limit := by
  funext i v
  unfold Callback.onItem callOnItem
  rw [call_take]
  rfl

theorem onResult_callback (f : Lambda) (limit : Nat) (items : List Value) :
    (f.callback limit).onResult limit items = fun r i v => callOnResult f items r i v limit := by
  funext r i v
  unfold Callback.onResult callOnResult
  rw [call_take]
  rfl

theorem steady_callOnItem (f : Lambda) (items : List Value) (i : Nat) (v : Value) :
    Steady (callOnItem f items i v) := by
  intro limit
  have hcode := agrees_code limit
  have hf : (f.callback limit).Related (Agrees limit) (f.callback stepCap) := ⟨rfl, hcode.call f⟩
  have := hcode.onItem hf items i v
  rwa [onItem_callback, onItem_callback] at this

theorem steady_callOnResult (f : Lambda) (items : List Value) (r : Value) (i : Nat) (v : Value) :
    Steady (callOnResult f items r i v) := by
  intro limit
  have hcode := agrees_code limit
  have hf : (f.callback limit).Related (Agrees limit) (f.callback stepCap) := ⟨rfl, hcode.call f⟩
  have := hcode.onResult hf items r i v
  rwa [onResult_callback, onResult_callback] at this

/-! ### Loops -/

/-- What is given on the first items, which start at position `i`. -/
inductive Results (give : Nat → Value → Except ScriptError Value) :
    Nat → List Value → List Value → Prop where
  | nil (i : Nat) : Results give i [] []
  | cons {i : Nat} {v x : Value} {vs xs : List Value} (h : give i v = .ok x)
    (t : Results give (i + 1) vs xs) : Results give i (v :: vs) (x :: xs)

/-- The first item whose result has the truth that is looked for, with its position. -/
def firstHit (truth : Bool) (i : Nat) : List Value → List Value → Option (Nat × Value)
  | v :: vs, x :: xs => if x.isTruthy == truth then some (i, v) else firstHit truth (i + 1) vs xs
  | _, _ => none

/-- The items whose results are true. -/
def chosen (items rs : List Value) : List Value :=
  ((items.zip rs).filter (·.2.isTruthy)).map (·.1)

theorem chosen_cons (v x : Value) (vs xs : List Value) :
    chosen (v :: vs) (x :: xs) = if x.isTruthy then v :: chosen vs xs else chosen vs xs := by
  unfold chosen
  rw [List.zip_cons_cons, List.filter_cons]
  split
  · rfl
  · rfl

section Loops

variable {frames : List Frame} {step : Nat → Value → Nat → Run Value}
  (hstep : ∀ i v, Steady (step i v))
include hstep

theorem steady_mapItems (done : List Value) (i : Nat) (items : List Value) :
    Steady fun limit => mapItems (fun i v => step i v limit) done i items :=
  fun limit => (agrees_code limit).mapItems (fun i v => hstep i v limit) done i items

theorem steady_filterItems (kept : List Value) (i : Nat) (items : List Value) :
    Steady fun limit => filterItems (fun i v => step i v limit) kept i items :=
  fun limit => (agrees_code limit).filterItems (fun i v => hstep i v limit) kept i items

theorem steady_firstWhere (truth : Bool) (i : Nat) (items : List Value) :
    Steady fun limit => firstWhere (fun i v => step i v limit) truth i items :=
  fun limit => (agrees_code limit).firstWhere (fun i v => hstep i v limit) truth i items

/-! One item of each loop. -/

theorem unlimited_mapItems_cons (done : List Value) (i : Nat) (v : Value) (vs : List Value) :
    unlimited frames (fun limit => mapItems (fun i v => step i v limit) done i (v :: vs)) =
      unlimited frames (step i v) >>= fun x =>
        unlimited frames fun limit => mapItems (fun i v => step i v limit) (x :: done) (i + 1) vs :=
  (hstep i v).unlimited_bind (fun x => steady_mapItems hstep (x :: done) (i + 1) vs) frames

theorem unlimited_filterItems_cons (kept : List Value) (i : Nat) (v : Value) (vs : List Value) :
    unlimited frames (fun limit => filterItems (fun i v => step i v limit) kept i (v :: vs)) =
      unlimited frames (step i v) >>= fun x => unlimited frames fun limit =>
        filterItems (fun i v => step i v limit) (if x.isTruthy then v :: kept else kept) (i + 1) vs :=
  (hstep i v).unlimited_bind (fun _ => steady_filterItems hstep _ (i + 1) vs) frames

theorem unlimited_firstWhere_cons (truth : Bool) (i : Nat) (v : Value) (vs : List Value) :
    unlimited frames (fun limit => firstWhere (fun i v => step i v limit) truth i (v :: vs)) =
      unlimited frames (step i v) >>= fun x =>
        if x.isTruthy == truth then .ok (some (i, v))
        else unlimited frames fun limit => firstWhere (fun i v => step i v limit) truth (i + 1) vs := by
  have hrest (x : Value) : Steady fun limit =>
      if x.isTruthy == truth then (pure (some (i, v)) : Run (Option (Nat × Value)))
      else firstWhere (fun i v => step i v limit) truth (i + 1) vs :=
    fun limit => related_ite (R := Agrees limit) (agrees_pure _)
      (steady_firstWhere hstep truth (i + 1) vs limit)
  refine ((hstep i v).unlimited_bind hrest frames).trans (congrArg _ (funext fun x => ?_))
  split
  · rfl
  · rfl

variable {i : Nat} {before rs : List Value}
  (h : Results (fun i v => unlimited frames (step i v)) i before rs)
include h

/-! Behind items whose results are known. -/

theorem unlimited_mapItems (done after : List Value) :
    unlimited frames (fun limit => mapItems (fun i v => step i v limit) done i (before ++ after)) =
      unlimited frames fun limit =>
        mapItems (fun i v => step i v limit) (rs.reverse ++ done) (i + before.length) after := by
  induction h generalizing done with
  | nil => rfl
  | cons hx _ ih =>
    rw [List.cons_append, unlimited_mapItems_cons hstep, hx]
    refine (ih _).trans ?_
    rw [List.reverse_cons, List.append_assoc, List.singleton_append, List.length_cons,
      Nat.add_right_comm, Nat.add_assoc]

theorem unlimited_filterItems (kept after : List Value) :
    unlimited frames (fun limit => filterItems (fun i v => step i v limit) kept i (before ++ after)) =
      unlimited frames fun limit => filterItems (fun i v => step i v limit)
        ((chosen before rs).reverse ++ kept) (i + before.length) after := by
  induction h generalizing kept with
  | nil => rfl
  | @cons i v x vs xs hx _ ih =>
    rw [List.cons_append, unlimited_filterItems_cons hstep, hx]
    refine (ih _).trans ?_
    rw [List.length_cons, Nat.add_right_comm, ← Nat.add_assoc, chosen_cons]
    cases x.isTruthy with
    | true => simp
    | false => simp

theorem unlimited_firstWhere (truth : Bool) (after : List Value) :
    unlimited frames (fun limit => firstWhere (fun i v => step i v limit) truth i (before ++ after)) =
      match firstHit truth i before rs with
      | some hit => .ok (some hit)
      | none => unlimited frames fun limit =>
          firstWhere (fun i v => step i v limit) truth (i + before.length) after := by
  induction h with
  | nil => rfl
  | @cons i v x vs xs hx _ ih =>
    rw [List.cons_append, unlimited_firstWhere_cons hstep, hx]
    change (if x.isTruthy == truth then _ else _) = _
    unfold firstHit
    split
    · rfl
    · rw [ih, List.length_cons, Nat.add_right_comm, ← Nat.add_assoc]

end Loops

/-- A fold of code is the fold of its outcomes. -/
theorem unlimited_foldItems {frames : List Frame} {step : Value → Nat → Value → Nat → Run Value}
    (hstep : ∀ r i v, Steady (step r i v)) (result : Value) (i : Nat) (items : List Value) :
    unlimited frames (fun limit => foldItems (fun r i v => step r i v limit) result i items) =
      (items.zipIdx i).foldlM (fun r p => unlimited frames (step r p.2 p.1)) result := by
  induction items generalizing result i with
  | nil => rfl
  | cons v vs ih =>
    rw [List.zipIdx_cons, List.foldlM_cons]
    refine ((hstep result i v).unlimited_bind (fun r => ?_) frames).trans ?_
    · exact fun limit => (agrees_code limit).foldItems (fun r i v => hstep r i v limit) r (i + 1) vs
    · exact congrArg _ (funext fun r => ih r (i + 1))

/-! ### The first item that decides -/

section FirstHit

variable {give : Nat → Value → Except ScriptError Value} {truth : Bool} {i : Nat}
  {items rs : List Value}

theorem firstHit_item : (firstHit truth i items rs).map (·.2) =
    ((items.zip rs).find? (·.2.isTruthy == truth)).map (·.1) := by
  induction items generalizing i rs with
  | nil => rfl
  | cons v vs ih =>
    cases rs with
    | nil => rfl
    | cons x xs =>
      unfold firstHit
      rw [List.zip_cons_cons, List.find?_cons]
      cases hx : x.isTruthy == truth with
      | true => simp
      | false => simpa using ih

variable (h : Results give i items rs)
include h

theorem firstHit_position : (firstHit truth i items rs).map (·.1) =
    (rs.findIdx? (·.isTruthy == truth)).map (i + ·) := by
  induction h with
  | nil => rfl
  | @cons i v x vs xs _ _ ih =>
    unfold firstHit
    rw [List.findIdx?_cons]
    cases hx : x.isTruthy == truth with
    | true => rfl
    | false =>
      rw [if_neg (by decide), if_neg (by decide), ih, Option.map_map]
      refine congrArg (Option.map · _) (funext fun j => ?_)
      exact Nat.add_assoc i 1 j ▸ congrArg (i + ·) (Nat.add_comm 1 j)

theorem isSome_firstHit : (firstHit truth i items rs).isSome = rs.any (·.isTruthy == truth) := by
  have := congrArg Option.isSome (@firstHit_position _ truth _ _ _ h)
  rwa [Option.isSome_map, Option.isSome_map, List.findIdx?_isSome] at this

end FirstHit

/-! ### Methods -/

namespace ItemMethod

/-- What a method should give when the function gives `rs` on the items. A fold is not of this kind. -/
def counterpart? (items rs : List Value) : ItemMethod → Option Value
  | map => .some (.array rs)
  | filter => .some (.array (chosen items rs))
  | find => .some ((((items.zip rs).find? (·.2.isTruthy)).map (·.1)).getD .null)
  | findIndex => .some (positionValue (rs.findIdx? (·.isTruthy)))
  | some => .some (.boolean (rs.any (·.isTruthy)))
  | every => .some (.boolean (rs.all (·.isTruthy)))
  | reduce => none

/-- The truth of a result behind which a method calls the function no more. -/
def sought? : ItemMethod → Option Bool
  | find | findIndex | some => .some true
  | every => .some false
  | map | filter | reduce => none

/-- Whether results decide what a method gives, whatever is given on the items behind. -/
def decided (m : ItemMethod) (rs : List Value) : Bool :=
  m.sought?.any fun truth => rs.any (·.isTruthy == truth)

end ItemMethod

section Search

variable {frames : List Frame} {step : Nat → Value → Nat → Run Value}
  (hstep : ∀ i v, Steady (step i v)) {truth : Bool} {before after rs : List Value}
  (h : Results (fun i v => unlimited frames (step i v)) 0 before rs)
include hstep h

/-- A search ends with a hit, or without one where the items end. -/
theorem unlimited_firstWhere_ok (hd : after = [] ∨ rs.any (·.isTruthy == truth)) :
    unlimited frames (fun limit => firstWhere (fun i v => step i v limit) truth 0 (before ++ after)) =
      .ok (firstHit truth 0 before rs) := by
  rw [unlimited_firstWhere hstep h]
  cases hhit : firstHit truth 0 before rs with
  | some hit => rfl
  | none =>
    rcases hd with rfl | hd
    · rfl
    · rw [← isSome_firstHit h, hhit] at hd
      cases hd

/-- Without a hit it goes on to the next item. -/
theorem unlimited_firstWhere_error {v : Value} {e : ScriptError}
    (hd : rs.any (·.isTruthy == truth) = false)
    (he : unlimited frames (step before.length v) = .error e) :
    unlimited frames (fun limit =>
      firstWhere (fun i v => step i v limit) truth 0 (before ++ v :: after)) = .error e := by
  rw [unlimited_firstWhere hstep h]
  cases hhit : firstHit truth 0 before rs with
  | some hit =>
    rw [← isSome_firstHit h, hhit] at hd
    cases hd
  | none =>
    rw [Nat.zero_add, unlimited_firstWhere_cons hstep, he]
    rfl

end Search

section Run

variable {frames : List Frame} {f : Lambda} {m : ItemMethod} {before after rs : List Value}
  {start : Nat → Option (Run Value)}

/-- A method gives its counterpart, once all items are there or those so far decide. -/
theorem unlimited_run_ok {x : Value}
    (h : Results (fun i v => unlimited frames (callOnItem f (before ++ after) i v)) 0 before rs)
    (hd : after = [] ∨ m.decided rs) (hx : m.counterpart? before rs = some x) :
    unlimited frames (fun limit => m.run limit (before ++ after) (f.callback limit) (start limit)) =
      .ok x := by
  have hstep := steady_callOnItem f (before ++ after)
  cases m with
  | map =>
    cases hx
    obtain rfl : after = [] := hd.resolve_right Bool.false_ne_true
    simp only [ItemMethod.run, onItem_callback]
    rw [(steady_mapItems hstep [] 0 _).unlimited_map, unlimited_mapItems hstep h,
      List.append_nil rs.reverse]
    exact congrArg (Except.ok <| Value.array ·) (List.reverse_reverse rs)
  | filter =>
    cases hx
    obtain rfl : after = [] := hd.resolve_right Bool.false_ne_true
    simp only [ItemMethod.run, onItem_callback]
    rw [(steady_filterItems hstep [] 0 _).unlimited_map, unlimited_filterItems hstep h,
      List.append_nil (chosen before rs).reverse]
    exact congrArg (Except.ok <| Value.array ·) (List.reverse_reverse _)
  | find =>
    cases hx
    simp only [ItemMethod.run, onItem_callback]
    rw [(steady_firstWhere hstep true 0 _).unlimited_map, unlimited_firstWhere_ok hstep h hd]
    have hitem : (firstHit true 0 before rs).map (·.2) =
        ((before.zip rs).find? (·.2.isTruthy)).map (·.1) := by
      simpa using @firstHit_item true 0 before rs
    rw [← hitem]
    cases firstHit true 0 before rs <;> rfl
  | findIndex =>
    cases hx
    simp only [ItemMethod.run, onItem_callback]
    rw [(steady_firstWhere hstep true 0 _).unlimited_map, unlimited_firstWhere_ok hstep h hd]
    refine congrArg (Except.ok <| positionValue ·) ?_
    simpa using @firstHit_position _ true _ _ _ h
  | some =>
    cases hx
    simp only [ItemMethod.run, onItem_callback]
    rw [(steady_firstWhere hstep true 0 _).unlimited_map, unlimited_firstWhere_ok hstep h hd]
    refine congrArg (Except.ok <| Value.boolean ·) ?_
    simpa using @isSome_firstHit _ true _ _ _ h
  | every =>
    cases hx
    simp only [ItemMethod.run, onItem_callback]
    rw [(steady_firstWhere hstep false 0 _).unlimited_map, unlimited_firstWhere_ok hstep h hd]
    refine congrArg (Except.ok <| Value.boolean ·) ?_
    rw [← Option.not_isSome, isSome_firstHit h, List.not_any_eq_all_not]
    simp
  | reduce => cases hx

/-- It ends in the first error, unless the results before it decide. -/
theorem unlimited_run_error {bad : Value} {e : ScriptError} (hm : m ≠ .reduce)
    (h : Results (fun i v => unlimited frames (callOnItem f (before ++ bad :: after) i v)) 0 before rs)
    (hd : m.decided rs = false)
    (he : unlimited frames (callOnItem f (before ++ bad :: after) before.length bad) = .error e) :
    unlimited frames (fun limit =>
      m.run limit (before ++ bad :: after) (f.callback limit) (start limit)) = .error e := by
  have hstep := steady_callOnItem f (before ++ bad :: after)
  cases m with
  | map =>
    simp only [ItemMethod.run, onItem_callback]
    rw [(steady_mapItems hstep [] 0 _).unlimited_map, unlimited_mapItems hstep h, Nat.zero_add,
      unlimited_mapItems_cons hstep, he]
    rfl
  | filter =>
    simp only [ItemMethod.run, onItem_callback]
    rw [(steady_filterItems hstep [] 0 _).unlimited_map, unlimited_filterItems hstep h, Nat.zero_add,
      unlimited_filterItems_cons hstep, he]
    rfl
  | reduce => exact absurd rfl hm
  | _ =>
    simp only [ItemMethod.run, onItem_callback]
    rw [(steady_firstWhere hstep _ 0 _).unlimited_map, unlimited_firstWhere_error hstep h hd he]
    rfl

/-- A fold with a start is a fold of outcomes. -/
theorem unlimited_run_reduce (items : List Value) {start : Nat → Run Value} (hs : Steady start) :
    unlimited frames (fun limit =>
        ItemMethod.reduce.run limit items (f.callback limit) (some (start limit))) =
      unlimited frames start >>= fun first => items.zipIdx.foldlM
        (fun acc p => unlimited frames (callOnResult f items acc p.2 p.1)) first := by
  simp only [ItemMethod.run, onResult_callback]
  refine (hs.unlimited_bind (fun first limit => ?_) frames).trans ?_
  · have hstep (r : Value) (i : Nat) (v : Value) := steady_callOnResult f items r i v limit
    exact (agrees_code limit).foldItems hstep first 0 items
  · exact congrArg _ (funext fun first =>
      unlimited_foldItems (steady_callOnResult f items) first 0 items)

end Run

/-! ### Expressions -/

section Expressions

variable {frames : List Frame} {object : Expr} {items : List Value}
  (hobject : unlimited frames (fun limit => eval limit object) = .ok (.array items))
include hobject

/-- Under a limit that is not exceeded, a method of an array that is called with a function literal gives
its counterpart on what the function gives alone on the items, once it has all of them or those so far
decide; it ends in the first error that comes before; and a fold from a start is the fold of what the
function gives alone. -/
theorem methodCall_counterpart {limit steps : Nat} {method : String} {m : ItemMethod} {f : Lambda}
    {more : List Expr} (hm : ItemMethod.ofName? method = some m)
    (hlimit : outOfSteps (ending (eval limit
      (.methodCall object method (.function f.params f.body :: more)) ⟨frames, steps⟩)) = false) :
    let alone := fun i v => unlimited frames (callOnItem f items i v)
    let result := ending (eval limit (.methodCall object method (.function f.params f.body :: more))
      ⟨frames, steps⟩)
    (∀ before after rs x, items = before ++ after → Results alone 0 before rs →
      (after = [] ∨ m.decided rs) → m.counterpart? before rs = some x → result = .ok x) ∧
    (∀ before bad after rs e, m ≠ .reduce → items = before ++ bad :: after →
      Results alone 0 before rs → m.decided rs = false → alone before.length bad = .error e →
      result = .error e) ∧
    ∀ start others, m = .reduce → more = start :: others →
      result = unlimited frames (fun limit => eval limit start) >>= fun first =>
        items.zipIdx.foldlM
          (fun acc p => unlimited frames (callOnResult f items acc p.2 p.1)) first := by
  intro alone result
  have hrun : result = unlimited frames fun limit => m.run limit items (f.callback limit)
      (startOf? limit (.function f.params f.body :: more)) := by
    have hcode : Steady fun limit =>
        eval limit (.methodCall object method (.function f.params f.body :: more)) :=
      fun limit => (agrees_code limit).eval _
    refine (hcode.ending_eq hlimit).trans ((unlimited_methodCall (hasValue_iff.2 hobject) method _).trans ?_)
    simp only [callMethod, hm]
    rfl
  refine ⟨fun before after rs x hitems h hd hx => ?_,
    fun before bad after rs e hfold hitems h hd he => ?_, fun start others hfold hmore => ?_⟩
  · subst hitems
    exact hrun.trans (unlimited_run_ok h hd hx)
  · subst hitems
    exact hrun.trans (unlimited_run_error hfold h hd he)
  · subst hfold hmore
    exact hrun.trans (unlimited_run_reduce items fun limit => (agrees_code limit).eval start)

end Expressions

/-- `x => k && x.length` -/
def guardedLength : Lambda := ⟨["x"], .expr (.binary (.logic .and) (.identifier "k")
  (.member (.identifier "x") "length"))⟩

/-- `(s, x) => x || s` -/
def lastTrue : Lambda := ⟨["s", "x"], .expr (.binary (.logic .or) (.identifier "x") (.identifier "s"))⟩

/-- The variables of a call: true, and a text and null, which has no length. -/
def lengthFrames : List Frame :=
  [[("k", .boolean true), ("xs", .array [.string "abc", .null])]]

/-- A search finds the text and does not reach null, a map does, and a fold keeps the text. -/
theorem methodCall_counterpart_lengths :
    ending (eval 100 (.methodCall (.identifier "xs") "find"
      [.function guardedLength.params guardedLength.body]) ⟨lengthFrames, 0⟩) = .ok (.string "abc") ∧
    ending (eval 100 (.methodCall (.identifier "xs") "map"
      [.function guardedLength.params guardedLength.body]) ⟨lengthFrames, 0⟩) =
      .error (.typeFault (.memberOfNull "length")) ∧
    ending (eval 100 (.methodCall (.identifier "xs") "reduce"
      [.function lastTrue.params lastTrue.body, .identifier "k"]) ⟨lengthFrames, 0⟩) =
      .ok (.string "abc") := by
  have hxs : unlimited lengthFrames (fun limit => eval limit (.identifier "xs")) =
    .ok (.array [.string "abc", .null]) := rfl
  have hresults : Results (fun i v => unlimited lengthFrames
      (callOnItem guardedLength [.string "abc", .null] i v)) 0
      [.string "abc"] [.integer 3] := .cons rfl (.nil 1)
  refine ⟨?_, ?_, ?_⟩
  · exact (methodCall_counterpart hxs (m := .find) rfl (by decide +kernel)).1
      _ [.null] _ _ rfl hresults (.inr rfl) rfl
  · exact (methodCall_counterpart hxs (m := .map) rfl (by decide +kernel)).2.1
      _ .null [] _ _ (by decide) rfl hresults rfl rfl
  · exact Eq.trans ((methodCall_counterpart hxs (m := .reduce) rfl (by decide +kernel)).2.2
      _ _ rfl rfl) rfl

end LiveNotes.Script
