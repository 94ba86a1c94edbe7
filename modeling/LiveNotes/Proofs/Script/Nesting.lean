import LiveNotes.Proofs.Script.Metering
import LiveNotes.Proofs.Script.ParserComplete
import LiveNotes.Proofs.Script.Spelling
import LiveNotes.Proofs.Value.Nesting

/-!
How deep the result of a function can nest. Every variable that is read is copied, and a copy nests at
most `maxNesting` deep whatever the frames hold. So the result of an expression goes beyond that only
by the levels that stand in its own text, and of those the parser allows no more than `maxDepth`.

* `Yields r post`: what a run gives, if it gives anything;
* `Expr.levels`: the levels that an expression puts around the values it reads;
* `eval_nesting`, `perform_nesting`: what an expression or a body gives, by induction on the syntax;
* `Reads.levels_le`, `compile_levels`: what the parser reads adds no more levels than its depth;
* `nesting_le_of_compile`, `invoke_nesting_le`: the bound for the result of a call.
-/

namespace LiveNotes.Script

open Value

/-! ### What a run gives -/

/-- Where a run gives something, it is one of those values. -/
def Yields {α : Type} (r : Run α) (post : α → Prop) : Prop := ∀ m a m', r m = .ok a m' → post a

section Rules

variable {α β : Type} {post post' : α → Prop}

theorem Yields.imp {r : Run α} (h : Yields r post) (hp : ∀ a, post a → post' a) : Yields r post' :=
  fun m a m' hr => hp a (h m a m' hr)

theorem yields_any (r : Run α) : Yields r fun _ => True := fun _ _ _ _ => trivial

theorem yields_pure {a : α} (h : post a) : Yields (pure a : Run α) post := by
  intro m b m' hr
  cases hr
  exact h

theorem yields_throw (e : ScriptError) : Yields (throw e : Run α) post := by
  intro m a m' hr
  cases hr

theorem yields_fault (f : TypeFault) : Yields (fault f : Run α) post := yields_throw _

theorem Yields.bind {r : Run α} {f : α → Run β} {post' : β → Prop} (hr : Yields r post)
    (hf : ∀ a, post a → Yields (f a) post') : Yields (r >>= f) post' := by
  intro m b m' h
  cases hrm : r m with
  | error e m₁ =>
    rw [bind_run_error hrm] at h
    cases h
  | ok a m₁ =>
    rw [bind_run_ok hrm] at h
    exact hf a (hr m a m₁ hrm) m₁ b m' h

/-- Behind a run whose result does not matter. -/
theorem yields_after {r : Run α} {f : α → Run β} {post' : β → Prop}
    (hf : ∀ a, Yields (f a) post') : Yields (r >>= f) post' :=
  (yields_any r).bind fun a _ => hf a

theorem Yields.ite {p : Prop} [Decidable p] {r s : Run α} (hr : Yields r post) (hs : Yields s post) :
    Yields (if p then r else s) post := by
  split
  · exact hr
  · exact hs

theorem Yields.within {r : Run α} (h : Yields r post) (frame : Frame) :
    Yields (within frame r) post := by
  intro m a m' hr
  cases hrm : r { m with frames := frame :: m.frames } with
  | error e m₁ =>
    rw [within_run_error hrm] at hr
    cases hr
  | ok b m₁ =>
    rw [within_run_ok hrm] at hr
    cases hr
    exact h _ a m₁ hrm

end Rules

/-! ### Copies -/

mutual

/-- A value that has a weight where it stands does not nest below the deepest level of a copy. -/
theorem nesting_of_weight? : ∀ (v : Value) {depth w : Nat}, depth ≤ maxNesting →
    weight? depth v = some w → depth + v.nesting ≤ maxNesting
  | .array items, depth, w, hd, h => by
    rw [weight?] at h
    split at h
    · cases h
    · next hlt =>
      have := itemsNesting_of_weight? items (by omega) h
      rw [nesting]
      omega
  | .object entries, depth, w, hd, h => by
    rw [weight?] at h
    split at h
    · cases h
    · next hlt =>
      have := entriesNesting_of_weight? entries (by omega) h
      rw [nesting]
      omega
  | .null, _, _, hd, _ | .boolean _, _, _, hd, _ | .integer _, _, _, hd, _ | .float _, _, _, hd, _
  | .string _, _, _, hd, _ => hd

theorem itemsNesting_of_weight? : ∀ (vs : List Value) {depth total w : Nat}, depth ≤ maxNesting →
    itemsWeight? depth total vs = some w → depth + itemsNesting vs ≤ maxNesting
  | [], _, _, _, hd, _ => hd
  | v :: vs, depth, total, w, hd, h => by
    rw [itemsWeight?] at h
    split at h
    · next w' hv =>
      have := nesting_of_weight? v hd hv
      have := itemsNesting_of_weight? vs hd h
      rw [itemsNesting]
      omega
    · cases h

theorem entriesNesting_of_weight? : ∀ (es : List (String × Value)) {depth total w : Nat},
    depth ≤ maxNesting → entriesWeight? depth total es = some w →
    depth + entriesNesting es ≤ maxNesting
  | [], _, _, _, hd, _ => hd
  | (k, v) :: es, depth, total, w, hd, h => by
    rw [entriesWeight?] at h
    split at h
    · next w' hv =>
      have := nesting_of_weight? v hd hv
      have := entriesNesting_of_weight? es hd h
      rw [entriesNesting]
      omega
    · cases h

end

mutual

/-- A value that does not nest below the deepest level of a copy has a weight where it stands. -/
theorem exists_weight? : ∀ (v : Value) {depth : Nat}, depth + v.nesting ≤ maxNesting →
    ∃ w, weight? depth v = some w
  | .array items, depth, h => by
    rw [nesting] at h
    rw [weight?, if_neg (by omega)]
    exact exists_itemsWeight? items (by omega)
  | .object entries, depth, h => by
    rw [nesting] at h
    rw [weight?, if_neg (by omega)]
    exact exists_entriesWeight? entries (by omega)
  | .string s, _, _ => ⟨s.utf8ByteSize, rfl⟩
  | .null, _, _ | .boolean _, _, _ | .integer _, _, _ | .float _, _, _ => ⟨0, rfl⟩

theorem exists_itemsWeight? : ∀ (vs : List Value) {depth total : Nat},
    depth + itemsNesting vs ≤ maxNesting → ∃ w, itemsWeight? depth total vs = some w
  | [], _, total, _ => ⟨total, rfl⟩
  | v :: vs, depth, total, h => by
    rw [itemsNesting] at h
    obtain ⟨w, hw⟩ := @exists_weight? v depth (by omega)
    rw [itemsWeight?, hw]
    exact exists_itemsWeight? vs (by omega)

theorem exists_entriesWeight? : ∀ (es : List (String × Value)) {depth total : Nat},
    depth + entriesNesting es ≤ maxNesting → ∃ w, entriesWeight? depth total es = some w
  | [], _, total, _ => ⟨total, rfl⟩
  | (k, v) :: es, depth, total, h => by
    rw [entriesNesting] at h
    obtain ⟨w, hw⟩ := @exists_weight? v depth (by omega)
    rw [entriesWeight?, hw]
    exact exists_entriesWeight? es (by omega)

end

/-- Values none of which is too deep are weighed together. -/
theorem exists_totalWeight? {vs : List Value} (h : ∀ v ∈ vs, v.nesting ≤ maxNesting) :
    ∃ w, totalWeight? vs = some w := by
  have key : ∀ (vs : List Value) (total : Nat), (∀ v ∈ vs, v.nesting ≤ maxNesting) → ∃ w,
      vs.foldl (fun total v => total.bind fun n => (weight? 0 v).map (n + ·)) (some total) = some w := by
    intro vs
    induction vs with
    | nil => exact fun total _ => ⟨total, rfl⟩
    | cons v vs ih =>
      intro total h
      obtain ⟨hv, hvs⟩ := List.forall_mem_cons.1 h
      obtain ⟨w, hw⟩ := @exists_weight? v 0 (by omega)
      rw [List.foldl_cons, hw]
      exact ih (total + w) hvs
  exact key vs 0 h

/-- A copy that is charged for is not too deep. -/
theorem yields_chargeCopy (limit : Nat) (v : Value) :
    Yields (chargeCopy limit v) fun _ => v.nesting ≤ maxNesting := by
  unfold chargeCopy
  split
  · next w hw =>
    intro m _ m' _
    have := nesting_of_weight? v (Nat.zero_le _) hw
    omega
  · exact yields_throw _

/-- Values that are weighed together are none of them too deep. -/
theorem nesting_of_totalWeight? {vs : List Value} {w : Nat} (h : totalWeight? vs = some w) :
    ∀ v ∈ vs, v.nesting ≤ maxNesting := by
  have none_stays : ∀ vs : List Value,
      vs.foldl (fun total v => total.bind fun n => (weight? 0 v).map (n + ·)) none = none := by
    intro vs
    induction vs with
    | nil => rfl
    | cons v vs ih => exact ih
  have key : ∀ (vs : List Value) (total : Nat),
      vs.foldl (fun total v => total.bind fun n => (weight? 0 v).map (n + ·)) (some total) = some w →
        ∀ v ∈ vs, v.nesting ≤ maxNesting := by
    intro vs
    induction vs with
    | nil =>
      intro total h v hv
      cases hv
    | cons v vs ih =>
      intro total h
      rw [List.foldl_cons] at h
      cases hv : weight? 0 v with
      | none =>
        rw [hv, Option.bind_some, Option.map_none, none_stays] at h
        cases h
      | some k =>
        rw [hv, Option.bind_some, Option.map_some] at h
        have := nesting_of_weight? v (Nat.zero_le _) hv
        exact List.forall_mem_cons.2 ⟨by omega, ih _ h⟩
  exact key vs 0 h

/-! ### Methods -/

section Methods

variable {limit : Nat}

theorem nesting_textValues_le (parts : List (List Char)) :
    (Value.array (parts.map textValue)).nesting ≤ 1 := by
  refine Nat.succ_le_succ (itemsNesting_le_iff.2 fun v hv => ?_)
  obtain ⟨s, -, rfl⟩ := List.mem_map.1 hv
  exact Nat.le_refl 0

/-- A method of a text gives an array of texts at most. -/
theorem yields_textMethod (s : String) (args : List Value) (m : TextMethod) :
    Yields (m.run limit s args) fun v => v.nesting ≤ 1 := by
  have plain {v : Value} (hv : v.nesting = 0) : Yields (pure v : Run Value) fun v => v.nesting ≤ 1 :=
    yields_pure (by omega)
  cases m with
  | indexOf =>
    refine plain ?_
    unfold positionValue
    split <;> rfl
  | item =>
    refine plain ?_
    split <;> rfl
  | split =>
    simp only [TextMethod.run]
    split
    · exact yields_pure (Nat.le_refl 1)
    · exact yields_pure (Nat.le_refl 1)
    · exact yields_after fun _ => yields_pure (nesting_textValues_le _)
  | «repeat» => exact .ite (yields_fault _) (yields_after fun _ => plain rfl)
  | padStart => exact yields_after fun _ => plain rfl
  | padEnd => exact yields_after fun _ => plain rfl
  | concat => exact yields_after fun _ => plain rfl
  | _ => exact plain rfl

/-- A method of an array gives one of its parts or something as deep, or puts values that were weighed
into an array. -/
theorem yields_arrayMethod (items args : List Value) (m : ArrayMethod) :
    Yields (m.run limit items args)
      fun v => v.nesting ≤ max (Value.array items).nesting (maxNesting + 1) := by
  have scalar {v : Value} (hv : v.nesting = 0) : Yields (pure v : Run Value)
      fun v => v.nesting ≤ max (Value.array items).nesting (maxNesting + 1) := yields_pure (by omega)
  have joined (sep : String) : Yields (joinItems limit sep items)
      fun v => v.nesting ≤ max (Value.array items).nesting (maxNesting + 1) :=
    yields_after fun _ => scalar rfl
  cases m with
  | join =>
    simp only [ArrayMethod.run]
    split
    all_goals exact joined _
  | text => exact joined _
  | includes => exact scalar rfl
  | indexOf =>
    refine scalar ?_
    unfold positionValue
    split <;> rfl
  | slice => exact (yields_chargeCopy limit _).bind fun _ h => yields_pure (by omega)
  | reverse =>
    refine yields_after fun _ => yields_pure ?_
    have := nesting_array_le_of_subset (List.reverse_subset.2 (List.Subset.refl items))
    omega
  | concat =>
    simp only [ArrayMethod.run]
    split
    · next w hw =>
      refine yields_after fun _ => yields_pure (Nat.le_trans ?_ (Nat.le_max_right _ _))
      have weighed := List.forall_mem_cons.1 (nesting_of_totalWeight? hw)
      refine Nat.succ_le_succ (itemsNesting_le_iff.2 fun v hv => ?_)
      rw [appended_eq, List.mem_append, List.mem_flatMap] at hv
      rcases hv with hv | ⟨arg, harg, hv⟩
      · exact Nat.le_trans (Nat.le_of_lt (nesting_lt_of_mem hv)) weighed.1
      · have := weighed.2 arg harg
        cases arg with
        | array more => exact Nat.le_trans (Nat.le_of_lt (nesting_lt_of_mem hv)) this
        | _ =>
          rw [List.mem_singleton.1 hv]
          exact this
    · exact yields_throw _
  | item =>
    refine yields_pure ?_
    cases h : (position? args[0]? items.length).bind fun i => items[i]? with
    | none => exact Nat.zero_le _
    | some v =>
      obtain ⟨i, -, hi⟩ := Option.bind_eq_some_iff.1 h
      have := nesting_lt_of_mem (List.mem_of_getElem? hi)
      rw [Option.getD_some]
      omega

theorem yields_callPlainMethod (target : Value) (method : String) (args : Run (List Value)) :
    Yields (callPlainMethod limit target method args)
      fun v => v.nesting ≤ max target.nesting (maxNesting + 1) := by
  unfold callPlainMethod
  split
  · refine yields_after fun values => ?_
    split
    · exact (yields_textMethod _ _ _).imp fun v hv => by omega
    · exact yields_throw _
  · refine yields_after fun values => ?_
    split
    · exact yields_arrayMethod _ _ _
    · exact yields_throw _
  · refine yields_after fun values => ?_
    split
    · next m _ =>
      refine yields_pure ?_
      cases m <;> exact Nat.zero_le _
    · exact yields_throw _
  · refine yields_after fun values => ?_
    split
    · next m _ =>
      refine yields_pure ?_
      cases m <;> exact Nat.zero_le _
    · exact yields_throw _
  · exact .ite (yields_pure (Nat.zero_le _)) (yields_throw _)
  · exact yields_fault _
  · exact yields_throw _

end Methods

/-! ### Loops over the items of an array -/

section Loops

variable {limit : Nat} {post : Value → Prop}

theorem yields_mapItems {step : Nat → Value → Run Value} (hs : ∀ i v, Yields (step i v) post)
    (done : List Value) (hd : ∀ v ∈ done, post v) (i : Nat) (items : List Value) :
    Yields (mapItems step done i items) fun rs => ∀ r ∈ rs, post r := by
  induction items generalizing done i with
  | nil => exact yields_pure fun r hr => hd r (List.mem_reverse.1 hr)
  | cons v vs ih =>
    exact (hs i v).bind fun r hr => ih (r :: done) (List.forall_mem_cons.2 ⟨hr, hd⟩) (i + 1)

theorem yields_filterItems (step : Nat → Value → Run Value) (kept : List Value) (i : Nat)
    (items : List Value) : Yields (filterItems step kept i items) fun rs => rs ⊆ kept ++ items := by
  induction items generalizing kept i with
  | nil => exact yields_pure (by simp)
  | cons v vs ih =>
    refine yields_after fun r => (ih _ _).imp fun rs hrs => List.Subset.trans hrs ?_
    split
    · simp
    · simp

theorem yields_firstWhere (step : Nat → Value → Run Value) (truth : Bool) (i : Nat)
    (items : List Value) :
    Yields (firstWhere step truth i items) fun found => ∀ e, found = some e → e.2 ∈ items := by
  induction items generalizing i with
  | nil => exact yields_pure fun _ h => by cases h
  | cons v vs ih =>
    refine yields_after fun r => .ite (yields_pure ?_) ?_
    · rintro e he
      cases he
      exact List.mem_cons_self
    · exact (ih _).imp fun found h e he => List.mem_cons_of_mem _ (h e he)

theorem yields_foldItems {step : Value → Nat → Value → Run Value}
    (hs : ∀ r i v, Yields (step r i v) post) {result : Value} (hr : post result) (i : Nat)
    (items : List Value) : Yields (foldItems step result i items) post := by
  induction items generalizing result i with
  | nil => exact yields_pure hr
  | cons v vs ih => exact (hs result i v).bind fun r hr => ih hr _

/-- The results of a function in an array are one level deeper than each of them. -/
theorem yields_itemMethod {n : Nat} {f : Callback} (hf : ∀ args, Yields (f.call args) (·.nesting ≤ n))
    {items : List Value} {start : Option (Run Value)}
    (hs : ∀ r, start = some r → Yields r (·.nesting ≤ n)) (m : ItemMethod) :
    Yields (m.run limit items f start)
      fun v => v.nesting ≤ max (Value.array items).nesting (n + 1) := by
  have scalar {v : Value} (hv : v.nesting = 0) : Yields (pure v : Run Value)
      fun v => v.nesting ≤ max (Value.array items).nesting (n + 1) := yields_pure (by omega)
  have onItem (i : Nat) (v : Value) : Yields (f.onItem limit items i v) (·.nesting ≤ n) := by
    unfold Callback.onItem
    split
    · exact yields_after fun _ => hf _
    · exact hf _
  have onResult (items : List Value) (r : Value) (i : Nat) (v : Value) :
      Yields (f.onResult limit items r i v) (·.nesting ≤ n) := by
    unfold Callback.onResult
    split
    · exact yields_after fun _ => hf _
    · exact hf _
  cases m with
  | map =>
    refine (yields_mapItems onItem [] (by simp) 0 items).bind fun rs hrs => yields_pure ?_
    have := itemsNesting_le_iff.2 hrs
    rw [nesting]
    omega
  | filter =>
    refine (yields_filterItems _ [] 0 items).bind fun rs hrs => yields_pure ?_
    have := nesting_array_le_of_subset hrs
    rw [List.nil_append] at this
    omega
  | find =>
    refine (yields_firstWhere _ true 0 items).bind fun found hfound => ?_
    cases found with
    | none => exact scalar rfl
    | some e =>
      have := nesting_lt_of_mem (hfound e rfl)
      exact yields_pure (by rw [Option.elim_some]; omega)
  | findIndex =>
    refine yields_after fun found => scalar ?_
    unfold positionValue
    split <;> rfl
  | some => exact yields_after fun found => scalar rfl
  | every => exact yields_after fun found => scalar rfl
  | reduce =>
    simp only [ItemMethod.run]
    split
    · next r =>
      refine (hs r rfl).bind fun v hv => ?_
      exact (yields_foldItems (onResult items) hv 0 items).imp fun r hr => by omega
    · exact yields_fault _
    · next first rest =>
      have hfirst := nesting_lt_of_mem (List.mem_cons_self (a := first) (l := rest))
      refine yields_foldItems (fun r i v => (onResult _ r i v).imp fun r hr => ?_) ?_ 1 rest
      all_goals omega

end Loops

/-! ### Members, names and operators -/

section Parts

variable {limit : Nat}

theorem yields_member (target : Value) (name : String) :
    Yields (member target name) fun v => v.nesting ≤ target.nesting := by
  unfold member
  split
  · exact yields_fault _
  · next entries =>
    refine yields_pure ?_
    cases h : Entries.get? entries name with
    | none => exact Nat.zero_le _
    | some v => exact Nat.le_of_lt (nesting_lt_of_entry (Entries.mem_of_get? h))
  · refine yields_pure ?_
    split <;> exact Nat.zero_le _
  · refine yields_pure ?_
    split <;> exact Nat.zero_le _
  · exact yields_pure (Nat.zero_le _)

theorem yields_index (target key : Value) :
    Yields (index target key) fun v => v.nesting ≤ target.nesting := by
  unfold index
  split
  · next items =>
    refine .ite (yields_pure ?_) (yields_member _ _)
    cases h : (offset? key).bind fun i => items[i]? with
    | none => exact Nat.zero_le _
    | some v =>
      obtain ⟨i, -, hi⟩ := Option.bind_eq_some_iff.1 h
      exact Nat.le_of_lt (nesting_lt_of_mem (List.mem_of_getElem? hi))
  · refine .ite (yields_pure ?_) (yields_member _ _)
    split <;> exact Nat.zero_le _
  · exact yields_member _ _

/-- A variable is read as a copy, whatever the frames hold. -/
theorem yields_readName (name : String) :
    Yields (readName limit name) fun v => v.nesting ≤ maxNesting := by
  unfold readName
  refine yields_after fun found => ?_
  cases found with
  | some v => exact (yields_chargeCopy limit v).bind fun _ h => yields_pure h
  | none =>
    refine .ite (yields_pure (Nat.zero_le _)) (.ite (yields_pure (Nat.zero_le _)) ?_)
    exact .ite (yields_fault _) (yields_throw _)

theorem nesting_numeric (op : Arith) (a b : Value) : (numeric op a b).nesting = 0 := by
  unfold numeric
  dsimp only
  split
  · exact nesting_of_isNumber (isNumber_arith ‹_›)
  · rfl

theorem yields_arithmetic (op : Arith) (a b : Value) :
    Yields (arithmetic limit op a b) fun v => v.nesting ≤ 0 := by
  unfold arithmetic
  exact .ite (yields_after fun _ => yields_pure (Nat.le_refl 0))
    (yields_pure (Nat.le_of_eq (nesting_numeric op a b)))

theorem nesting_unary (op : UnaryOp) (v : Value) : (op.apply v).nesting = 0 := by
  cases op with
  | not => rfl
  | plus => exact nesting_of_isNumber (isNumber_toNumeric v)
  | negate =>
    unfold UnaryOp.apply negate
    dsimp only
    split
    · split <;> rfl
    · rfl
    · exact nesting_of_isNumber (isNumber_ofFloat _)

theorem nesting_mathConstant (name : String) : (mathConstant name).nesting = 0 := by
  unfold mathConstant
  split
  · rfl
  · split
    · rfl
    · rfl

/-- A global that is called gives no container. -/
theorem nesting_globalCall {g : Global} {args : List Value} {v : Value} (h : g.call? args = some v) :
    v.nesting = 0 := by
  cases g with
  | string => cases h; rfl
  | number =>
    cases h
    cases args with
    | nil => rfl
    | cons v vs => exact nesting_of_isNumber (isNumber_toNumeric v)
  | boolean => cases h; rfl
  | parseInt => cases h; exact nesting_of_isNumber (isNumber_readInteger _ _)
  | parseFloat => cases h; exact nesting_of_isNumber (isNumber_ofFloat _)
  | math | json | object => cases h

theorem yields_callName (callee : String) (args : Run (List Value)) :
    Yields (callName callee args) fun v => v.nesting ≤ 0 := by
  unfold callName
  refine yields_after fun found => ?_
  cases found with
  | some v => exact yields_throw _
  | none =>
    dsimp only
    split
    · exact yields_throw _
    · refine yields_after fun values => ?_
      split
      · exact yields_pure (Nat.le_of_eq (nesting_globalCall ‹_›))
      · exact yields_throw _

theorem nesting_objectKeys (v : Value) : (Value.array (objectKeys v)).nesting ≤ 1 := by
  refine Nat.succ_le_succ (itemsNesting_le_iff.2 fun w hw => ?_)
  cases v with
  | object entries =>
    obtain ⟨e, -, rfl⟩ := List.mem_map.1 hw
    exact Nat.le_refl 0
  | array items =>
    obtain ⟨i, -, rfl⟩ := List.mem_map.1 hw
    exact Nat.le_refl 0
  | _ => cases hw

theorem nesting_objectValues (v : Value) :
    (Value.array (objectValues v)).nesting ≤ max 1 v.nesting := by
  cases v with
  | object entries =>
    refine Nat.le_trans (Nat.succ_le_succ (itemsNesting_le_iff.2 fun w hw => ?_)) (Nat.le_max_right _ _)
    obtain ⟨e, he, rfl⟩ := List.mem_map.1 hw
    exact entriesNesting_le_iff.1 (Nat.le_refl _) e he
  | array items => exact Nat.le_max_right _ _
  | _ => exact Nat.le_refl 1

/-- An entry of an object becomes an array in an array, one level deeper than its value was. -/
theorem nesting_objectEntries (v : Value) :
    (Value.array (objectEntries v)).nesting ≤ v.nesting + 1 := by
  cases v with
  | object entries =>
    refine Nat.succ_le_succ (itemsNesting_le_iff.2 fun w hw => ?_)
    obtain ⟨e, he, rfl⟩ := List.mem_map.1 hw
    have := nesting_lt_of_entry he
    simp only [nesting, itemsNesting] at this ⊢
    omega
  | _ => exact Nat.le_add_left 1 _

/-- A member of a global gives what was read from a text, or its argument with one level around it. -/
theorem nesting_globalMethod {g : Global} {name : String} {args : List Value} {v : Value} {n : Nat}
    (ha : ∀ w ∈ args, w.nesting ≤ n) (hn : maxNesting ≤ n) (h : g.method name args = .ok v) :
    v.nesting ≤ n + 1 := by
  have first : (args.headD .null).nesting ≤ n := by
    cases args with
    | nil => exact Nat.zero_le _
    | cons w ws => exact ha w List.mem_cons_self
  have number {v : Value} (hv : v.isNumber = true) : v.nesting ≤ n + 1 := by
    rw [nesting_of_isNumber hv]
    exact Nat.zero_le _
  unfold Global.method at h
  dsimp only at h
  split at h
  · split at h <;> cases h
    exact number (isNumber_ofFloat _)
  · cases h
    exact Nat.zero_le _
  · split at h <;> cases h
    next hv =>
    obtain ⟨node, -, hnode⟩ := Option.bind_eq_some_iff.1 hv
    have := Json.nesting_of_toValueWithin? _ node hnode
    have : Json.maxNesting ≤ maxNesting := by decide
    omega
  · cases h
    have := nesting_objectKeys (args.headD .null)
    omega
  · cases h
    have := nesting_objectValues (args.headD .null)
    omega
  · cases h
    have := nesting_objectEntries (args.headD .null)
    omega
  · cases h
    exact Nat.zero_le _
  · cases h
    exact Nat.zero_le _
  · cases h
    exact number (isNumber_ofFloat _)
  · cases h
    exact number (isNumber_readInteger _ _)
  · cases h

theorem yields_callGlobalMethod {args : Run (List Value)} {n : Nat} (hn : maxNesting ≤ n)
    (ha : Yields args fun vs => ∀ v ∈ vs, v.nesting ≤ n) (g : Global) (method : String) :
    Yields (callGlobalMethod limit g method args) fun v => v.nesting ≤ n + 1 := by
  unfold callGlobalMethod
  refine ha.bind fun values hvalues => ?_
  split
  · exact yields_throw _
  · exact yields_after fun _ => yields_pure (Nat.zero_le _)
  · next v _ hv => exact yields_pure (nesting_globalMethod hvalues hn hv)

theorem yields_callMethod {n : Nat} (hn : maxNesting ≤ n) (target : Value) (method : String)
    {f : Option Callback} (hf : ∀ f', f = some f' → ∀ args, Yields (f'.call args) (·.nesting ≤ n))
    {start : Option (Run Value)} (hs : ∀ r, start = some r → Yields r (·.nesting ≤ n))
    (args : Run (List Value)) : Yields (callMethod limit target method f start args)
      fun v => v.nesting ≤ max target.nesting (n + 1) := by
  unfold callMethod
  split
  · split
    · next f' => exact yields_itemMethod (hf f' rfl) hs _
    · exact yields_fault _
  · exact (yields_callPlainMethod _ method args).imp fun v hv => by omega

end Parts

/-! ### Levels of an expression -/

mutual

/-- The levels that an expression can put around the values it reads. -/
def Expr.levels : Expr → Nat
  | .member target _ => target.levels
  | .index target _ => target.levels
  | .binary _ left right => max left.levels right.levels
  | .conditional _ yes no => max yes.levels no.levels
  | .methodCall target _ args => max target.levels (levelsOfAll args + 1)
  | .function _ body => body.levels
  | .object fields => levelsOfFields fields + 1
  | .array items => levelsOfAll items + 1
  | _ => 0

/-- The levels that the body of a function can put around the values it reads. -/
def Body.levels : Body → Nat
  | .expr e => e.levels
  | .block statements => levelsOfBlock statements

/-- The levels of what a statement gives back. -/
def Statement.levels : Statement → Nat
  | .give value => value.levels
  | _ => 0

/-- The most levels of some expressions. -/
def levelsOfAll : List Expr → Nat
  | [] => 0
  | e :: es => max e.levels (levelsOfAll es)

/-- The most levels of the values of some fields. -/
def levelsOfFields : List (String × Expr) → Nat
  | [] => 0
  | (_, e) :: fields => max e.levels (levelsOfFields fields)

/-- The most levels of what some statements give back. -/
def levelsOfBlock : List Statement → Nat
  | [] => 0
  | s :: ss => max s.levels (levelsOfBlock ss)

end

/-! ### Evaluation -/

section Evaluation

variable {limit : Nat}

mutual

/-- What an expression gives nests no deeper than a copy and the levels of the expression. -/
theorem eval_nesting : ∀ e : Expr, Yields (eval limit e) fun v => v.nesting ≤ maxNesting + e.levels
  | .float _ | .integer _ | .string _ | .boolean _ | .null =>
    yields_after fun _ => yields_pure (Nat.zero_le _)
  | .identifier name => yields_after fun _ =>
    (yields_readName name).imp fun _ hv => Nat.le_trans hv (Nat.le_add_right _ _)
  | .member target name => by
    rw [eval]
    refine yields_after fun _ => yields_after fun g => ?_
    have drawn : Yields (do member (← eval limit target) name)
        fun v => v.nesting ≤ maxNesting + (Expr.member target name).levels := by
      refine (eval_nesting target).bind fun t ht => (yields_member t name).imp fun v hv => ?_
      exact Nat.le_trans hv ht
    rcases g with _ | g
    · exact drawn
    · cases g
      case math =>
        refine yields_pure ?_
        rw [nesting_mathConstant]
        exact Nat.zero_le _
      all_goals exact drawn
  | .index target key => by
    rw [eval]
    refine yields_after fun _ => (eval_nesting target).bind fun t ht => yields_after fun k => ?_
    exact (yields_index t k).imp fun v hv => Nat.le_trans hv ht
  | .unary op operand => by
    rw [eval]
    refine yields_after fun _ => yields_after fun v => yields_pure ?_
    rw [nesting_unary]
    exact Nat.zero_le _
  | .binary op left right => by
    rw [eval, Expr.levels]
    refine yields_after fun _ => (eval_nesting left).bind fun a ha => ?_
    cases op with
    | logic op =>
      refine .ite (yields_pure (by omega)) ?_
      exact (eval_nesting right).imp fun b hb => by omega
    | arith op =>
      exact yields_after fun b => (yields_arithmetic op a b).imp fun v hv => by omega
    | comparison op => exact yields_after fun b => yields_pure (Nat.zero_le _)
  | .conditional condition yes no => by
    rw [eval, Expr.levels]
    refine yields_after fun _ => yields_after fun t => .ite ?_ ?_
    · exact (eval_nesting yes).imp fun v hv => by omega
    · exact (eval_nesting no).imp fun v hv => by omega
  | .call callee args =>
    yields_after fun _ => (yields_callName callee _).imp fun v hv => by omega
  | .methodCall target method args => by
    rw [eval, Expr.levels]
    refine yields_after fun _ => yields_after fun g => ?_
    cases g with
    | some g =>
      have hargs := evalAll_nesting args [] (Nat.le_refl _) (by simp)
      exact (yields_callGlobalMethod (Nat.le_add_right _ _) hargs g method).imp fun v hv => by omega
    | none =>
      refine (eval_nesting target).bind fun t ht => ?_
      refine (yields_callMethod (n := maxNesting + levelsOfAll args) (Nat.le_add_right _ _) t method
        (callbackOf?_nesting args) (startOf?_nesting args) _).imp fun v hv => ?_
      omega
  | .function _ _ => yields_after fun _ => yields_fault _
  | .object fields => by
    rw [eval, Expr.levels]
    refine yields_after fun _ => (evalFields_nesting fields [] (Nat.le_refl _) (by simp)).bind fun es hes => ?_
    refine yields_pure ?_
    have := entriesNesting_le_iff.2 hes
    rw [nesting]
    omega
  | .array items => by
    rw [eval, Expr.levels]
    refine yields_after fun _ => (evalAll_nesting items [] (Nat.le_refl _) (by simp)).bind fun vs hvs => ?_
    refine yields_pure ?_
    have := itemsNesting_le_iff.2 hvs
    rw [nesting]
    omega

theorem callbackOf?_nesting : ∀ (args : List Expr) (f : Callback), callbackOf? limit args = some f →
    ∀ vs, Yields (f.call vs) (·.nesting ≤ maxNesting + levelsOfAll args)
  | .function params body :: es, f, h, vs => by
    cases h
    refine yields_after fun _ => ((perform_nesting body).within _).imp fun v hv => ?_
    rw [levelsOfAll, Expr.levels]
    omega
  | [], f, h, _ => by cases h
  | .float _ :: _, f, h, _ | .integer _ :: _, f, h, _ | .string _ :: _, f, h, _
  | .boolean _ :: _, f, h, _ | .null :: _, f, h, _ | .identifier _ :: _, f, h, _
  | .member _ _ :: _, f, h, _ | .index _ _ :: _, f, h, _ | .unary _ _ :: _, f, h, _
  | .binary _ _ _ :: _, f, h, _ | .conditional _ _ _ :: _, f, h, _ | .call _ _ :: _, f, h, _
  | .methodCall _ _ _ :: _, f, h, _ | .object _ :: _, f, h, _ | .array _ :: _, f, h, _ => by cases h

theorem startOf?_nesting : ∀ (args : List Expr) (r : Run Value), startOf? limit args = some r →
    Yields r (·.nesting ≤ maxNesting + levelsOfAll args)
  | [], r, h | [_], r, h => by cases h
  | e :: start :: es, r, h => by
    cases h
    refine (eval_nesting start).imp fun v hv => ?_
    simp only [levelsOfAll]
    omega

theorem evalAll_nesting : ∀ (es : List Expr) (done : List Value) {n : Nat},
    maxNesting + levelsOfAll es ≤ n → (∀ v ∈ done, v.nesting ≤ n) →
    Yields (evalAll limit done es) fun vs => ∀ v ∈ vs, v.nesting ≤ n
  | [], done, _, _, hd => yields_pure fun v hv => hd v (List.mem_reverse.1 hv)
  | e :: es, done, n, hn, hd => by
    rw [levelsOfAll] at hn
    refine (eval_nesting e).bind fun v hv => ?_
    have hv : v.nesting ≤ n := by omega
    exact evalAll_nesting es (v :: done) (by omega) (List.forall_mem_cons.2 ⟨hv, hd⟩)

theorem evalFields_nesting : ∀ (fields : List (String × Expr)) (done : Entries Value) {n : Nat},
    maxNesting + levelsOfFields fields ≤ n → (∀ e ∈ done, e.2.nesting ≤ n) →
    Yields (evalFields limit done fields) fun es => ∀ e ∈ es, e.2.nesting ≤ n
  | [], done, _, _, hd => yields_pure hd
  | (name, e) :: fields, done, n, hn, hd => by
    rw [levelsOfFields] at hn
    refine (eval_nesting e).bind fun v hv => ?_
    refine evalFields_nesting fields (done.insert name v) (by omega) fun e he => ?_
    rcases Entries.mem_insert he with rfl | he
    · exact Nat.le_trans hv (by omega)
    · exact hd e he

theorem perform_nesting : ∀ body : Body,
    Yields (perform limit body) fun v => v.nesting ≤ maxNesting + body.levels
  | .expr e => eval_nesting e
  | .block statements => runStatements_nesting statements

theorem runStatements_nesting : ∀ statements : List Statement,
    Yields (runStatements limit statements) fun v => v.nesting ≤ maxNesting + levelsOfBlock statements
  | [] => yields_pure (Nat.zero_le _)
  | .declare name e :: rest => by
    rw [levelsOfBlock]
    refine yields_after fun _ => yields_after fun v => yields_after fun _ => ?_
    exact (runStatements_nesting rest).imp fun v hv => by omega
  | .give e :: rest => by
    rw [levelsOfBlock, Statement.levels]
    exact yields_after fun _ => (eval_nesting e).imp fun v hv => by omega
  | .expression e :: rest => by
    rw [levelsOfBlock]
    refine yields_after fun _ => yields_after fun v => ?_
    exact (runStatements_nesting rest).imp fun v hv => by omega

end

end Evaluation

/-! ### Levels of what is parsed -/

/-- The levels of what is read. -/
def Goal.levels : (g : Goal) → g.Result → Nat
  | .expression, x | .functionTail, x | .conditional, x | .level _, x | .chain _ _, x | .unary, x
  | .operand, x | .links _, x | .fieldValue _, x | .atom, x => x.levels
  | .block, ss | .statements, ss => levelsOfBlock ss
  | .statement, s => s.levels
  | .elements _, xs => levelsOfAll xs
  | .fields, xs => levelsOfFields xs

/-- The most levels of what is read some levels deep: an atom has one around its items, and a chain
has those of what it starts from. -/
def Goal.levelBound : Goal → Nat → Nat
  | .expression, k | .functionTail, k | .block, k | .statements, k | .statement, k | .elements _, k
  | .fields, k | .fieldValue _, k => k
  | .conditional, k | .level _, k | .unary, k | .operand, k | .atom, k => k + 1
  | .chain _ left, k => max left.levels (k + 1)
  | .links x, k => max x.levels (k + 1)

theorem literal?_levels {t : Token} {x : Expr} (h : literal? t = some x) : x.levels = 0 := by
  unfold literal? at h
  split at h <;> cases h <;> rfl

/-- What the grammar reads adds no more levels than it goes deep. -/
theorem Reads.levels_le {g : Goal} {ts rest : List Token} {x : g.Result} {k : Nat}
    (h : Reads g ts x rest k) : g.levels x ≤ g.levelBound k := by
  induction h with
  | wordFunction _ ih | arrowBlock _ _ ih | arrowExpr _ _ _ ih => exact Nat.le_succ_of_le ih
  | noFunction _ _ _ ih | unconditional _ _ ih | tightest _ ih | noOperator _ _ ih => exact ih
  | named _ ih | nameless _ ih | braces _ ih | give _ _ ih | fieldValue _ ih => exact ih
  | noStatement | giveNothing | noElement | noField | fieldOnly => exact Nat.zero_le _
  | declare | declareOnly | bare => exact Nat.zero_le _
  | parentheses _ ih | atomFunction _ ih => exact Nat.le_succ_of_le ih
  | array _ ih | object _ ih => exact Nat.succ_le_succ ih
  | chainEnd | linksEnd => exact Nat.le_max_left _ _
  | literal h =>
    rw [Goal.levels, literal?_levels h]
    exact Nat.zero_le _
  | member _ _ ih | operand _ _ ih ih' =>
    simp only [Goal.levels, Goal.levelBound, Expr.levels] at *
    omega
  | _ =>
    simp only [Goal.levels, Goal.levelBound, Expr.levels, levelsOfAll, levelsOfFields,
      levelsOfBlock] at *
    omega

/-- A function adds no more levels than the parser goes deep. -/
theorem compile_levels {code : String} {f : Lambda} (h : compile code = .ok f) :
    f.body.levels ≤ maxDepth := by
  unfold compile at h
  split at h
  · next f hf =>
    cases h
    obtain ⟨ts, rest, k, hts, hr, hk⟩ := parseExpression_reads (parseFunction_ok hf)
    have := hr.levels_le
    simp only [Goal.levels, Goal.levelBound, Expr.levels] at this
    omega
  · cases h

/-! ### Calls -/

/-- What a call gives nests no deeper than a copy and the levels that the parser allows. -/
theorem nesting_le_of_compile {code : String} {f : Lambda} {limit : Nat} {args : List Value} {v : Value}
    (hf : compile code = .ok f) (hv : invoke limit f args = .ok v) :
    v.nesting ≤ maxNesting + maxDepth := by
  have hlevels := compile_levels hf
  have hcall : Yields (call limit f args) fun v => v.nesting ≤ maxNesting + f.body.levels :=
    yields_after fun _ => (perform_nesting f.body).within _
  unfold invoke outcome at hv
  split at hv
  · split at hv
    · next hm =>
      cases hv
      exact Nat.le_trans (hcall _ _ _ hm) (by omega)
    · cases hv
  · cases hv

/-- The result of a call never nests more than 512 levels deep. -/
theorem invoke_nesting_le {code : String} {f : Lambda} {limit : Nat} {args : List Value} {v : Value}
    (hf : compile code = .ok f) (hv : invoke limit f args = .ok v) : v.nesting ≤ 512 := by
  have := nesting_le_of_compile hf hv
  have : maxNesting + maxDepth ≤ 512 := by decide
  omega

/-- Arrays in each other. -/
def nested : Nat → Value
  | 0 => .null
  | n + 1 => .array [nested n]

/-- The text of a function that puts an array around its argument. -/
def wrapCode : String :=
  .ofList (spaced [Word.a, .symbol .arrow, .symbol .lBracket, Word.a, .symbol .rBracket])

theorem compile_wrapCode : compile wrapCode = .ok ⟨["a"], .expr (.array [.identifier "a"])⟩ := by
  obtain ⟨ts, hts, hkinds⟩ := tokenize_words
    [Word.a, .symbol .arrow, .symbol .lBracket, Word.a, .symbol .rBracket]
  have item : Reads (.elements .rBracket) [.identifier "a", .symbol .rBracket, .eof]
      [.identifier "a"] [.eof] 1 := .lastElement nofun (by simp [peek]) (reads_name rfl)
  have body : Reads .expression [.symbol .lBracket, .identifier "a", .symbol .rBracket, .eof]
      (.array [.identifier "a"]) [.eof] 2 :=
    ((Reads.array item).toUnary rfl (not_links_of_closes rfl)).toExpression nofun
      (fun _ _ => not_arrowHead nofun nofun) rfl
  have hreads := Reads.arrowExpr (.inl ⟨"a", rfl, rfl⟩) (by nofun) body
  have := parseExpression_of_reads hts (by rw [hkinds]; exact hreads) rfl (by decide)
  rw [compile, wrapCode, parseFunction_of_expression this]

theorem weight?_nested {depth n : Nat} (h : depth + n ≤ maxNesting) :
    weight? depth (nested n) = some n := by
  induction n generalizing depth with
  | zero => rfl
  | succ n ih =>
    have hd : ¬ maxNesting ≤ depth := by omega
    rw [nested, weight?, if_neg hd, itemsWeight?, ih (by omega)]
    simp [itemsWeight?, Nat.add_comm]

/-- A charge that the limit and the counter have room for. -/
theorem charge_ok {limit cost : Nat} {m : Machine} (h : m.steps + cost ≤ limit)
    (hcap : limit ≤ stepCap) :
    charge limit cost m = .ok () { m with steps := m.steps + cost } := by
  unfold charge
  rw [Nat.min_eq_left (by omega), if_neg (by omega)]

theorem invoke_wrap {v : Value} {w limit : Nat} (hw : weight? 0 v = some w) (hl : w + 3 ≤ limit)
    (hcap : limit ≤ stepCap) :
    invoke limit ⟨["a"], .expr (.array [.identifier "a"])⟩ [v] = .ok (.array [v]) := by
  have hcopy : chargeCopy limit v = charge limit w := by
    unfold chargeCopy
    rw [hw]
  have found : lookup? "a" ⟨[[("a", v)]], 3⟩ = .ok (some v) ⟨[[("a", v)]], 3⟩ := rfl
  have read : readName limit "a" ⟨[[("a", v)]], 3⟩ = .ok v ⟨[[("a", v)]], 3 + w⟩ := by
    rw [readName, bind_run_ok found]
    dsimp only
    rw [hcopy, bind_run_ok (charge_ok (show 3 + w ≤ limit by omega) hcap)]
    rfl
  have item : eval limit (.identifier "a") ⟨[[("a", v)]], 2⟩ = .ok v ⟨[[("a", v)]], 3 + w⟩ := by
    rw [eval, bind_run_ok (charge_ok (show 2 + 1 ≤ limit by omega) hcap)]
    exact read
  have items : evalAll limit [] [.identifier "a"] ⟨[[("a", v)]], 2⟩ =
      .ok [v] ⟨[[("a", v)]], 3 + w⟩ := by
    rw [evalAll, bind_run_ok item]
    rfl
  have result : eval limit (.array [.identifier "a"]) ⟨[[("a", v)]], 1⟩ =
      .ok (.array [v]) ⟨[[("a", v)]], 3 + w⟩ := by
    rw [eval, bind_run_ok (charge_ok (show 1 + 1 ≤ limit by omega) hcap), bind_run_ok items]
    rfl
  have run : call limit ⟨["a"], .expr (.array [.identifier "a"])⟩ [v] ⟨[], 0⟩ =
      .ok (.array [v]) ⟨[], 3 + w⟩ := by
    rw [call, callBody, bind_run_ok (charge_ok (show 0 + 1 ≤ limit by omega) hcap)]
    exact within_run_ok (m := ⟨[], 1⟩) result
  unfold invoke outcome
  rw [if_pos (by rfl), Machine.start, run]

/-- An argument as deep as a copy may be comes back one level deeper. -/
theorem invoke_nesting_le_wrapped : ∃ f, compile wrapCode = .ok f ∧
    invoke 300 f [nested 256] = .ok (nested 257) ∧ (nested 257).nesting ≤ 512 := by
  have hv : invoke 300 ⟨["a"], .expr (.array [.identifier "a"])⟩ [nested 256] = .ok (nested 257) := by
    exact invoke_wrap (weight?_nested (by decide)) (by decide) (by decide)
  exact ⟨_, compile_wrapCode, hv, invoke_nesting_le compile_wrapCode hv⟩

end LiveNotes.Script
