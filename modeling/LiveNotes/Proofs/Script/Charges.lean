import LiveNotes.Proofs.Script.Budget
import LiveNotes.Proofs.Script.Worth

/-!
What the steps of a run pay for. Each step charged is taken as the size `unit`, and a value that a run
gives is compared with what was paid on the way to it.

* `Pays unit limit r post`: where `r` gives a value, the price of the steps charged for it is one of
  which `post` holds with the value;
* `pays_charge`, `Pays.bind` and the rules beside them;
* `pays_textMethod`, `pays_arrayMethod`, `pays_itemMethod`: the methods; `replaceAll` has no rule.
-/

namespace LiveNotes.Script

open Number Text Value

/-! ### Rules -/

/-- Where a run gives a value, within its limit, something holds of the price of the steps charged for
it and of the value. -/
def Pays {α : Type} (unit limit : Nat) (r : Run α) (post : Nat → α → Prop) : Prop :=
  ∀ m v m', m.steps ≤ limit → r m = .ok v m' →
    ∃ d, m'.steps = m.steps + d ∧ m'.steps ≤ limit ∧ post (unit * d) v

section Rules

variable {α β : Type} {unit limit : Nat}

theorem Pays.imp {r : Run α} {post post' : Nat → α → Prop} (h : Pays unit limit r post)
    (hp : ∀ p v, post p v → post' p v) : Pays unit limit r post' := by
  intro m v m' hm hr
  obtain ⟨d, hd, hl, hv⟩ := h m v m' hm hr
  exact ⟨d, hd, hl, hp _ _ hv⟩

/-- No more than the limit is ever paid. -/
theorem Pays.bounded {r : Run α} {post : Nat → α → Prop} (h : Pays unit limit r post) :
    Pays unit limit r fun p v => p ≤ unit * limit ∧ post p v := by
  intro m v m' hm hr
  obtain ⟨d, hd, hl, hv⟩ := h m v m' hm hr
  exact ⟨d, hd, hl, Nat.mul_le_mul_left _ (by omega), hv⟩

theorem pays_pure {post : Nat → α → Prop} {a : α} (h : post 0 a) :
    Pays unit limit (pure a : Run α) post := by
  intro m v m' hm hr
  cases hr
  exact ⟨0, rfl, hm, by rwa [Nat.mul_zero]⟩

theorem pays_throw {post : Nat → α → Prop} (e : ScriptError) :
    Pays unit limit (throw e : Run α) post := fun _ _ _ _ hr => by cases hr

theorem pays_fault {post : Nat → α → Prop} (f : TypeFault) :
    Pays unit limit (fault f : Run α) post := pays_throw _

theorem pays_lookup? (name : String) : Pays unit limit (lookup? name) fun p _ => p = 0 :=
  fun _ _ _ hm hr => by cases hr; exact ⟨0, rfl, hm, Nat.mul_zero _⟩

theorem pays_declare (name : String) (v : Value) :
    Pays unit limit (declare name v) fun p _ => p = 0 := by
  intro m u m' hm hr
  cases hr
  have : (m.declare name v).steps = m.steps := by
    unfold Machine.declare
    split <;> rfl
  exact ⟨0, this, by omega, Nat.mul_zero _⟩

/-- One run after the other: both are paid for. -/
theorem Pays.bind {r : Run α} {f : α → Run β} {post : Nat → α → Prop} {post' : Nat → β → Prop}
    (hr : Pays unit limit r post)
    (hf : ∀ p a, post p a → Pays unit limit (f a) fun q b => post' (p + q) b) :
    Pays unit limit (r >>= f) post' := by
  intro m v m' hm h
  cases hrm : r m with
  | error e m₁ =>
    rw [bind_run_error hrm] at h
    cases h
  | ok a m₁ =>
    rw [bind_run_ok hrm] at h
    obtain ⟨d, hd, hl, ha⟩ := hr m a m₁ hm hrm
    obtain ⟨d', hd', hl', hv⟩ := hf _ a ha m₁ v m' hl h
    exact ⟨d + d', by omega, hl', by rwa [Nat.mul_add]⟩

theorem Pays.ite {p : Prop} [Decidable p] {r s : Run α} {post : Nat → α → Prop}
    (hr : p → Pays unit limit r post) (hs : ¬ p → Pays unit limit s post) :
    Pays unit limit (if p then r else s) post := by
  split
  · exact hr ‹_›
  · exact hs ‹_›

theorem Pays.within {r : Run α} {post : Nat → α → Prop} (h : Pays unit limit r post) (frame : Frame) :
    Pays unit limit (within frame r) post := by
  intro m v m' hm hr
  cases hrm : r { m with frames := frame :: m.frames } with
  | error e m₁ =>
    rw [within_run_error hrm] at hr
    cases hr
  | ok a m₁ =>
    rw [within_run_ok hrm] at hr
    cases hr
    exact h { m with frames := frame :: m.frames } v m₁ hm hrm

variable (hc : limit < stepCap)
include hc

/-- A charge that the limit allows is counted in full, since the counter is not at its cap. -/
theorem pays_charge (cost : Nat) : Pays unit limit (charge limit cost) fun p _ => p = unit * cost := by
  intro m v m' hm hr
  unfold charge at hr
  dsimp only at hr
  split at hr
  · cases hr
  · next hl =>
    cases hr
    refine ⟨cost, ?_, by dsimp only; omega, rfl⟩
    dsimp only
    omega

theorem pays_chargeCopy (v : Value) :
    Pays unit limit (chargeCopy limit v) fun p _ => p = unit * size v := by
  unfold chargeCopy
  split
  · next w hw =>
    rw [← weight?_eq_size 0 v hw]
    exact pays_charge hc w
  · exact pays_throw _

/-- A charge and a value that was ready before it. -/
theorem pays_charged {post : Nat → α → Prop} {cost : Nat} {a : α} (h : post (unit * cost) a) :
    Pays unit limit (do charge limit cost; return a) post :=
  (pays_charge hc cost).bind fun _ _ hp => pays_pure (by rwa [hp])

end Rules

/-! ### Methods of texts -/

section Texts

variable (unit : Nat)

theorem weight_argText (args : List Value) (i : Nat) : weight (argText args i) ≤ itemsWorth unit args := by
  unfold argText
  cases h : args[i]? with
  | none => exact Nat.zero_le _
  | some v =>
    have := weight_toText unit v
    have := worth_le_itemsWorth unit (List.mem_of_getElem? h)
    rw [Option.elim_some]
    omega

theorem worth_textValue (s : List Char) : worth unit (textValue s) = weight s := by
  rw [textValue, worth, String.toList_ofList]

theorem length_fill_le (text : List Char) (n : Nat) : (fill text n).length ≤ n := by
  unfold fill
  rw [List.length_take]
  exact Nat.min_le_left _ _

/-- The items of a split text, as long as each is paid for, are worth no more than the text. -/
theorem itemsWorth_textValues (parts : List (List Char)) :
    itemsWorth unit (parts.map textValue) = parts.length + (parts.map weight).sum := by
  induction parts with
  | nil => rfl
  | cons s parts ih =>
    simp only [List.map_cons, itemsWorth, worth_textValue, ih, List.length_cons, List.sum_cons]
    omega

theorem weight_parts (sep s : List Char) : ((parts sep s).map weight).sum ≤ weight s := by
  unfold parts
  split
  · refine Nat.le_of_eq ?_
    rw [List.map_map]
    rfl
  · exact weight_splitAll sep s

/-- A character of a text weighs no more than the text. -/
theorem weight_character {s : List Char} {c : Char} {o : Option Nat}
    (h : (o.bind fun i => s[i]?) = some c) : weight [c] ≤ weight s := by
  obtain ⟨i, -, hi⟩ := Option.bind_eq_some_iff.1 h
  exact weight_le_of_sublist (List.singleton_sublist.2 (List.mem_of_getElem? hi))

variable {unit} {limit : Nat} (hc : limit < stepCap) (hu : longestText + 3 ≤ unit)
include hc hu

theorem pays_pad (args : List Value) (length : Nat) :
    Pays unit limit (pad limit args length) fun p s => weight s ≤ p := by
  have room : 12 ≤ unit := Nat.le_trans (by decide) hu
  have built (n : Nat) (text : List Char) : weight (fill text n) ≤ unit * n :=
    calc weight (fill text n)
      _ ≤ 12 * (fill text n).length := weight_le_length _
      _ ≤ 12 * n := Nat.mul_le_mul_left _ (length_fill_le text n)
      _ ≤ unit * n := Nat.mul_le_mul_right _ room
  exact pays_charged hc (built (padding args length).1 (padding args length).2)

theorem pays_split (s : String) (args : List Value) : Pays unit limit (TextMethod.split.run limit s args)
    fun p v => worth unit v ≤ longestText + weight s.toList + p := by
  have whole : worth unit (.array [.string s]) = 1 + weight s.toList := by
    simp [worth, itemsWorth]
  have one : 1 ≤ longestText := by decide
  simp only [TextMethod.run]
  split
  · exact pays_pure (by omega)
  · exact pays_pure (by omega)
  · next sep _ _ =>
    refine pays_charged hc ?_
    have := weight_parts sep.toText.toList s.toList
    have := itemsWorth_textValues unit (parts sep.toText.toList s.toList)
    generalize parts sep.toText.toList s.toList = found at *
    have := Nat.mul_le_mul_left unit (Nat.sub_le found.length 2)
    have := Nat.le_mul_of_pos_left found.length (show 0 < unit by omega)
    simp only [worth, List.length_map]
    omega

theorem pays_repeat (s : String) (args : List Value) :
    Pays unit limit (TextMethod.repeat.run limit s args) fun p v => worth unit v ≤ p := by
  simp only [TextMethod.run]
  refine .ite (fun _ => pays_fault _) fun _ => pays_charged hc ?_
  generalize (args[0]?.elim 0 Value.toWhole).toInt.toNat = n
  rw [worth_textValue]
  split
  · exact Nat.zero_le _
  · calc weight (List.replicate n s.toList).flatten
      _ = n * weight s.toList := weight_replicate n _
      _ ≤ n * (12 * s.toList.length) := Nat.mul_le_mul_left _ (weight_le_length _)
      _ = 12 * (n * s.length) := by rw [String.length_toList, Nat.mul_left_comm]
      _ ≤ unit * (n * s.length) := Nat.mul_le_mul_right _ (Nat.le_trans (by decide) hu)

/-- What a method of a text gives is drawn out of the text and the arguments, or paid for. -/
theorem pays_textMethod (s : String) (args : List Value) {m : TextMethod} (hm : m ≠ .replaceAll) :
    Pays unit limit (m.run limit s args)
      fun p v => worth unit v ≤ longestText + (weight s.toList + itemsWorth unit args) + p := by
  have plain (v : Value) (hv : worth unit v ≤ longestText + (weight s.toList + itemsWorth unit args)) :
      Pays unit limit (pure v : Run Value)
        fun p v => worth unit v ≤ longestText + (weight s.toList + itemsWorth unit args) + p :=
    pays_pure hv
  have scalar {v : Value} (hv : worth unit v = longestText) := plain v (by omega)
  have part {t : List Char} (ht : weight t ≤ weight s.toList) :=
    plain (textValue t) (by rw [worth_textValue]; omega)
  cases m with
  | replaceAll => exact absurd rfl hm
  | upper => exact part (weight_upper _)
  | lower => exact part (weight_lower _)
  | trim => exact part (weight_trim _)
  | trimStart => exact part (weight_trimStart _)
  | trimEnd => exact part (weight_trimEnd _)
  | text => exact plain _ (by rw [worth]; omega)
  | includes => exact scalar rfl
  | startsWith => exact scalar rfl
  | endsWith => exact scalar rfl
  | indexOf =>
    refine scalar ?_
    unfold positionValue
    split <;> rfl
  | slice =>
    refine part (weight_le_of_sublist ?_)
    exact (List.drop_sublist _ _).trans (List.take_sublist _ _)
  | charAt =>
    refine part ?_
    cases h : (offset? args[0]?).bind fun i => s.toList[i]? with
    | none => exact Nat.zero_le _
    | some c => exact weight_character h
  | item =>
    simp only [TextMethod.run]
    split
    · next c h => exact part (weight_character h)
    · exact scalar rfl
  | split => exact (pays_split hc hu s args).imp fun p v hv => by omega
  | replace =>
    have := weight_replaceFirst (argText args 0) (argText args 1) s.toList
    have := weight_argText unit args 1
    refine plain _ ?_
    rw [worth_textValue]
    omega
  | «repeat» => exact (pays_repeat hc hu s args).imp fun p v hv => by omega
  | padStart =>
    refine (pays_pad hc hu args _).bind fun p t ht => pays_pure ?_
    rw [worth_textValue, weight_append]
    omega
  | padEnd =>
    refine (pays_pad hc hu args _).bind fun p t ht => pays_pure ?_
    rw [worth_textValue, weight_append]
    omega
  | concat =>
    refine pays_charged hc ?_
    have := weight_le_paid unit (by omega) (args.foldl (fun s v => s ++ v.toText) s)
    rw [worth]
    omega

end Texts

/-! ### Methods of arrays and numbers -/

section Arrays

variable (unit : Nat)

theorem itemTexts_bytes (vs : List Value) : (itemTexts [] vs).foldl (fun n s => n + s.utf8ByteSize) 0 =
    ((itemTexts [] vs).map String.utf8ByteSize).sum := by
  generalize itemTexts [] vs = ts
  have : ∀ n, ts.foldl (fun n s => n + s.utf8ByteSize) n = n + (ts.map String.utf8ByteSize).sum := by
    induction ts with
    | nil => simp
    | cons t ts ih =>
      intro n
      rw [List.foldl_cons, ih, List.map_cons, List.sum_cons, Nat.add_assoc]
  rw [this, Nat.zero_add]

/-- The weight of values together is their size. -/
theorem totalWeight?_eq_size {vs : List Value} {w : Nat} (h : totalWeight? vs = some w) :
    w = itemsSize vs := by
  have none_stays : ∀ vs : List Value,
      vs.foldl (fun total v => total.bind fun n => (weight? 0 v).map (n + ·)) none = none := by
    intro vs
    induction vs with
    | nil => rfl
    | cons v vs ih => exact ih
  have key : ∀ (vs : List Value) (total : Nat),
      vs.foldl (fun total v => total.bind fun n => (weight? 0 v).map (n + ·)) (some total) = some w →
        w = total + itemsSize vs := by
    intro vs
    induction vs with
    | nil => intro total h; cases h; rfl
    | cons v vs ih =>
      intro total h
      rw [List.foldl_cons] at h
      cases hv : weight? 0 v with
      | none =>
        rw [hv, Option.bind_some, Option.map_none, none_stays] at h
        cases h
      | some k =>
        rw [hv, Option.bind_some, Option.map_some] at h
        have := ih _ h
        have := weight?_eq_size 0 v hv
        rw [itemsSize]
        omega
  have := key vs 0 h
  omega

/-- The items that an argument adds to an array. -/
def spread : Value → List Value
  | .array more => more
  | v => [v]

theorem appended_eq (items args : List Value) : appended items args = items ++ args.flatMap spread := rfl

theorem itemsWorth_spread (v : Value) : itemsWorth unit (spread v) ≤ 1 + worth unit v := by
  cases v with
  | array more => simp only [spread, worth]; omega
  | _ => exact Nat.le_refl _

theorem length_spread_le (v : Value) : (spread v).length ≤ size v + 1 := by
  cases v with
  | array more => simp only [spread, size]; omega
  | _ => exact Nat.le_add_left _ _

theorem itemsWorth_appended (items args : List Value) :
    itemsWorth unit (appended items args) ≤ itemsWorth unit items + itemsWorth unit args := by
  rw [appended_eq, itemsWorth_append]
  refine Nat.add_le_add_left ?_ _
  induction args with
  | nil => exact Nat.le_refl _
  | cons v args ih =>
    have := itemsWorth_spread unit v
    rw [List.flatMap_cons, itemsWorth_append, itemsWorth]
    omega

theorem length_appended_le (items args : List Value) :
    (appended items args).length ≤ itemsSize (.array items :: args) + args.length := by
  have added : (args.flatMap spread).length ≤ itemsSize args + args.length := by
    induction args with
    | nil => exact Nat.le_refl _
    | cons v args ih =>
      have := length_spread_le v
      rw [List.flatMap_cons, List.length_append, itemsSize, List.length_cons]
      omega
  rw [appended_eq, List.length_append, itemsSize, size]
  omega

variable {unit} {limit : Nat} (hc : limit < stepCap) (hu : longestText + 3 ≤ unit)
include hc hu

theorem pays_joinItems (sep : String) (items : List Value) :
    Pays unit limit (joinItems limit sep items) fun p v => worth unit v ≤ p := by
  unfold joinItems
  refine pays_charged hc ?_
  rw [itemTexts_bytes, ← utf8ByteSize_intercalate]
  exact weight_le_paid unit (by omega) _

/-- What a method of an array gives is drawn out of the array and the arguments, or paid for. -/
theorem pays_arrayMethod (items args : List Value) (m : ArrayMethod) :
    Pays unit limit (m.run limit items args) fun p v => worth unit v ≤
      longestText + max (worth unit (.array items) + itemsWorth unit args) (unit * args.length) + p := by
  have plain (v : Value) (hv : worth unit v ≤ longestText + worth unit (.array items)) :
      Pays unit limit (pure v : Run Value) fun p v => worth unit v ≤
        longestText + max (worth unit (.array items) + itemsWorth unit args) (unit * args.length) + p :=
    pays_pure (by omega)
  have copied {vs : List Value} : Pays unit limit (chargeCopy limit (.array vs))
      fun p _ => worth unit (.array vs) ≤ p :=
    (pays_chargeCopy hc _).imp fun _ _ hp => hp ▸ worth_array_le unit hu vs
  cases m with
  | join =>
    simp only [ArrayMethod.run]
    split
    all_goals exact (pays_joinItems hc hu _ items).imp fun _ _ h => by omega
  | text => exact (pays_joinItems hc hu _ items).imp fun _ _ h => by omega
  | includes => exact plain _ (Nat.le_add_right _ _)
  | indexOf =>
    refine plain _ ?_
    unfold positionValue
    split <;> exact Nat.le_add_right _ _
  | slice => exact copied.bind fun p _ hp => pays_pure (by omega)
  | concat =>
    simp only [ArrayMethod.run]
    split
    · next w hw =>
      refine pays_charged hc ?_
      have hl := length_appended_le items args
      rw [← totalWeight?_eq_size hw] at hl
      have := itemsWorth_appended unit items args
      have := Nat.mul_le_mul_left unit (Nat.le_trans (Nat.sub_le _ 2) hl)
      rw [Nat.mul_add] at this
      simp only [worth] at *
      omega
    · exact pays_throw _
  | reverse =>
    refine copied.bind fun p _ hp => pays_pure ?_
    have : worth unit (.array items.reverse) = worth unit (.array items) := by
      simp only [worth, List.length_reverse, itemsWorth_reverse]
    omega
  | item =>
    refine plain _ ?_
    cases h : (position? args[0]? items.length).bind fun i => items[i]? with
    | none => exact Nat.le_add_right _ _
    | some v =>
      obtain ⟨i, -, hi⟩ := Option.bind_eq_some_iff.1 h
      exact Nat.le_trans (worth_le_of_mem unit (List.mem_of_getElem? hi)) (Nat.le_add_left _ _)

omit hc hu in
/-- What a method of a number gives is a short text. -/
theorem worth_numberMethod (number : Value) (args : List Value) (m : NumberMethod)
    (hn : number.isNumber = true) : worth unit (m.value number args) ≤ longestText := by
  cases m with
  | toFixed => exact weight_fixed _ (Nat.min_le_right _ _)
  | text =>
    refine Nat.le_trans (weight_toText unit number) ?_
    cases number with
    | integer n => exact Nat.le_refl _
    | float x => exact Nat.le_refl _
    | _ => cases hn

end Arrays

/-! ### Loops over the items of an array -/

section Loops

variable {unit limit : Nat}

/-- Each result of a function is paid for by its call, but for an excess that the text of the function
makes possible. -/
def Callback.Pays (unit limit excess : Nat) (f : Callback) : Prop :=
  ∀ args, Script.Pays unit limit (f.call args) fun p v => 1 + worth unit v ≤ p + excess

variable {excess : Nat}

theorem pays_mapItems {step : Nat → Value → Run Value}
    (hs : ∀ i v, Pays unit limit (step i v) fun p r => 1 + worth unit r ≤ p + excess)
    (done : List Value) (i : Nat) (items : List Value) :
    Pays unit limit (mapItems step done i items) fun p rs =>
      rs.length = done.length + items.length ∧
        itemsWorth unit rs ≤ itemsWorth unit done + p + items.length * excess := by
  induction items generalizing done i with
  | nil =>
    refine pays_pure ⟨by simp, ?_⟩
    rw [itemsWorth_reverse]
    omega
  | cons v vs ih =>
    refine (hs i v).bind fun p r hr => (ih (r :: done) (i + 1)).imp fun q rs hrs => ⟨?_, ?_⟩
    · have := hrs.1
      simp only [List.length_cons] at *
      omega
    · have := hrs.2
      rw [itemsWorth] at this
      rw [List.length_cons, Nat.succ_mul]
      omega

theorem pays_filterItems {step : Nat → Value → Run Value}
    (hs : ∀ i v, Pays unit limit (step i v) fun _ _ => True) (kept : List Value) (i : Nat)
    (items : List Value) : Pays unit limit (filterItems step kept i items) fun _ rs =>
      rs.Sublist (kept.reverse ++ items) := by
  induction items generalizing kept i with
  | nil => exact pays_pure (by simp)
  | cons v vs ih =>
    refine (hs i v).bind fun p r _ => (ih _ _).imp fun q rs hrs => hrs.trans ?_
    split
    · simp
    · exact (List.sublist_cons_self v vs).append_left _

theorem pays_firstWhere {step : Nat → Value → Run Value}
    (hs : ∀ i v, Pays unit limit (step i v) fun _ _ => True) (truth : Bool) (i : Nat)
    (items : List Value) : Pays unit limit (firstWhere step truth i items) fun _ found =>
      ∀ e, found = some e → e.2 ∈ items := by
  induction items generalizing i with
  | nil => exact pays_pure fun _ h => by cases h
  | cons v vs ih =>
    refine (hs i v).bind fun p r _ => .ite (fun _ => pays_pure ?_) fun _ => ?_
    · rintro e he
      cases he
      exact List.mem_cons_self
    · exact (ih _).imp fun q found h e he => List.mem_cons_of_mem _ (h e he)

theorem pays_foldItems {step : Value → Nat → Value → Run Value}
    (hs : ∀ r i v, Pays unit limit (step r i v) fun p r => 1 + worth unit r ≤ p + excess)
    (result : Value) (i : Nat) (items : List Value) :
    Pays unit limit (foldItems step result i items) fun p r =>
      worth unit r ≤ max (worth unit result) (p + excess) := by
  induction items generalizing result i with
  | nil => exact pays_pure (by omega)
  | cons v vs ih =>
    refine (hs result i v).bind fun p r hr => (ih r _).imp fun q r' hr' => ?_
    omega

variable (hc : limit < stepCap)
include hc

theorem Callback.Pays.onItem {f : Callback} (hf : f.Pays unit limit excess) (items : List Value) (i : Nat)
    (v : Value) : Script.Pays unit limit (f.onItem limit items i v)
      fun p r => 1 + worth unit r ≤ p + excess := by
  unfold Callback.onItem
  split
  · exact (pays_chargeCopy hc _).bind fun p _ _ => (hf _).imp fun q r h => by omega
  · exact hf _

theorem Callback.Pays.onResult {f : Callback} (hf : f.Pays unit limit excess) (items : List Value)
    (result : Value) (i : Nat) (v : Value) : Script.Pays unit limit (f.onResult limit items result i v)
      fun p r => 1 + worth unit r ≤ p + excess := by
  unfold Callback.onResult
  split
  · exact (pays_chargeCopy hc _).bind fun p _ _ => (hf _).imp fun q r h => by omega
  · exact hf _

/-- What a method gives with a function is drawn out of the array and the start of a fold, or paid for
by the calls. The items pay for the excess of all calls but two. -/
theorem pays_itemMethod {f : Callback} (hf : f.Pays unit limit excess) (he : excess ≤ unit)
    (items : List Value) {start : Option (Run Value)} {startWorth : Nat}
    (hs : ∀ r, start = some r → Pays unit limit r fun p v => worth unit v ≤ startWorth + p)
    (m : ItemMethod) :
    Pays unit limit (m.run limit items f start) fun p v => worth unit v ≤
      longestText + (worth unit (.array items) + 2 * excess + startWorth) + p := by
  have called (i : Nat) (v : Value) : Pays unit limit (f.onItem limit items i v) fun _ _ => True :=
    (hf.onItem hc items i v).imp fun _ _ _ => trivial
  have scalar {v : Value} (hv : worth unit v = longestText) {p : Nat} :
      Pays unit limit (pure v : Run Value) fun q v => worth unit v ≤
        longestText + (worth unit (.array items) + 2 * excess + startWorth) + (p + q) :=
    pays_pure (by omega)
  cases m with
  | map =>
    refine (pays_mapItems (hf.onItem hc items) [] 0 items).bind fun p rs hrs => pays_pure ?_
    obtain ⟨hl, hw⟩ := hrs
    rw [List.length_nil, Nat.zero_add] at hl
    rw [itemsWorth, Nat.zero_add] at hw
    have := calc items.length * excess
      _ ≤ (items.length - 2 + 2) * excess := Nat.mul_le_mul_right _ (by omega)
      _ = (items.length - 2) * excess + 2 * excess := Nat.add_mul _ _ _
      _ ≤ unit * (items.length - 2) + 2 * excess := by
        rw [Nat.mul_comm unit]
        exact Nat.add_le_add_right (Nat.mul_le_mul_left _ he) _
    simp only [worth, hl]
    omega
  | filter =>
    refine (pays_filterItems called [] 0 items).bind fun p rs hrs => pays_pure ?_
    have := worth_le_of_sublist unit hrs
    rw [List.reverse_nil, List.nil_append] at this
    omega
  | find =>
    refine (pays_firstWhere called true 0 items).bind fun p found hfound => ?_
    cases found with
    | none => exact scalar rfl
    | some e =>
      have := worth_le_of_mem unit (hfound e rfl)
      exact pays_pure (by rw [Option.elim_some]; omega)
  | findIndex =>
    refine (pays_firstWhere called true 0 items).bind fun p found _ => scalar ?_
    unfold positionValue
    split <;> rfl
  | some => exact (pays_firstWhere called true 0 items).bind fun p found _ => scalar rfl
  | every => exact (pays_firstWhere called false 0 items).bind fun p found _ => scalar rfl
  | reduce =>
    simp only [ItemMethod.run]
    split
    · next r =>
      refine (hs r rfl).bind fun p v hv => ?_
      exact (pays_foldItems (hf.onResult hc items) v 0 items).imp fun q r' hr' => by omega
    · exact pays_fault _
    · next first rest =>
      refine (pays_foldItems (hf.onResult hc _) first 1 rest).imp fun p r hr => ?_
      have := worth_le_of_mem unit (List.mem_cons_self (a := first) (l := rest))
      omega

end Loops

end LiveNotes.Script
