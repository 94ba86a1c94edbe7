import LiveNotes.Proofs.Script.Comparison
import LiveNotes.Proofs.Script.Nesting
import LiveNotes.Proofs.Script.TextMethods
import LiveNotes.Proofs.Value.Arithmetic

/-!
Slices of texts and arrays, and places of texts in others. Both count characters or items, from 0 on; a bound
of a slice is any value taken as a whole number, and lies between 0 and the length whatever that is.

* `cutOut_append`: the slices before and behind one bound are the whole;
* `cutOut_position`: the slice from one position to another, as far as doubles count exactly;
* `HasValue.textSlice`, `HasValue.arraySlice`: what the calls give;
* `slice_indexOf`: slices can be put together again, and the place of a text is the first one with a slice
  that is the text.
-/

namespace LiveNotes.Script

open Number Text

/-! ### Bounds -/

/-- The most that a double counts to without a gap. -/
theorem nearestDouble_natCast {n : Nat} (h : n ≤ 2 ^ 53) : nearestDouble n = n := by
  rcases Nat.eq_or_lt_of_le h with rfl | h
  · decide +kernel
  · exact nearestDouble_of_natAbs_lt h

/-- A position stands for itself. -/
theorem toWhole_position {n : Nat} (h : n ≤ 2 ^ 53) : (Value.integer (.ofNat n)).toWhole.toInt = n := by
  have hsmall : n < 2 ^ 63 := Nat.lt_of_le_of_lt h (by decide)
  change (Double.toInteger (Double.ofInteger (.ofNat n))).toInt = n
  rw [toInteger_ofInteger, Int64.toInt_ofNat_of_lt hsmall, nearestDouble_natCast h]
  unfold clamp
  rw [toInt_ofInt_of_fits (by unfold minInteger maxInteger; omega)]
  unfold minInteger maxInteger
  omega

theorem bound_position {n : Nat} (h : n ≤ 2 ^ 53) (length default : Nat) :
    bound (some (.integer (.ofNat n))) length default = min n length := by
  unfold bound
  dsimp only
  rw [toWhole_position h, if_pos (Int.natCast_nonneg n), Int.toNat_natCast]

/-- The default of a bound is that of null, and of no value. -/
theorem bound_default {k : Value} (hk : k.isNull = false) (length default default' : Nat) :
    bound (some k) length default = bound (some k) length default' := by
  cases k with
  | null => cases hk
  | _ => rfl

section Cuts

variable {α : Type} (items : List α)

/-- What stands before a bound and what stands behind it. -/
theorem cutOut_append {k : Value} (hk : k.isNull = false) :
    cutOut items (span [.integer 0, k] items.length) ++ cutOut items (span [k] items.length) = items := by
  have hstart : bound (some (.integer 0)) items.length 0 = 0 :=
    (bound_position (n := 0) (by decide) items.length 0).trans (Nat.zero_min _)
  have hle : bound (some k) items.length 0 ≤ items.length := bound_le _ _ _ (Nat.zero_le _)
  have hfront : span [.integer 0, k] items.length = (0, bound (some k) items.length 0) := by
    change (min (bound (some (.integer 0)) items.length 0) (bound (some k) items.length items.length),
      bound (some k) items.length items.length) = _
    rw [hstart, Nat.zero_min, bound_default hk items.length items.length 0]
  have hrest : span [k] items.length = (bound (some k) items.length 0, items.length) := by
    change (min (bound (some k) items.length 0) items.length, items.length) = _
    rw [Nat.min_eq_left hle]
  rw [hfront, hrest]
  unfold cutOut
  rw [List.drop_zero, List.take_length, List.take_append_drop]

/-- The items between two positions. -/
theorem cutOut_position {i n : Nat} (h : i + n ≤ 2 ^ 53) :
    cutOut items (span [.integer (.ofNat i), .integer (.ofNat (i + n))] items.length) =
      (items.drop i).take n := by
  have hstart : bound (some (.integer (.ofNat i))) items.length 0 = min i items.length :=
    bound_position (Nat.le_trans (Nat.le_add_right i n) h) _ _
  have hend : bound (some (.integer (.ofNat (i + n)))) items.length items.length =
    min (i + n) items.length := bound_position h _ _
  have hspan : span [.integer (.ofNat i), .integer (.ofNat (i + n))] items.length =
      (min i (items.take (i + n)).length, min (i + n) items.length) := by
    change (min (bound (some (.integer (.ofNat i))) items.length 0)
      (bound (some (.integer (.ofNat (i + n)))) items.length items.length),
      bound (some (.integer (.ofNat (i + n)))) items.length items.length) = _
    rw [hstart, hend, List.length_take]
    congr 1
    omega
  rw [hspan]
  unfold cutOut
  dsimp only
  rw [← List.take_eq_take_min, ← List.drop_eq_drop_min, List.drop_take, Nat.add_sub_cancel_left]

end Cuts

/-! ### Calls -/

section Calls

variable {frames : List Frame} {x y z : Expr} {s t : String} {items : List Value} {k : Value}

theorem HasValue.textSlice {args : List Expr} {values : List Value} (hx : HasValue frames x (.string s))
    (hargs : List.Forall₂ (HasValue frames) args values) : HasValue frames (.methodCall x "slice" args)
      (textValue (cutOut s.toList (span values s.toList.length))) := by
  rw [String.length_toList]
  exact .textMethod (m := .slice) hargs hx rfl rfl

/-- A slice of an array is copied, so the array must not nest too deep. -/
theorem HasValue.arraySlice {args : List Expr} {values : List Value} (hx : HasValue frames x (.array items))
    (hn : (Value.array items).nesting ≤ maxNesting) (hargs : List.Forall₂ (HasValue frames) args values) :
    HasValue frames (.methodCall x "slice" args) (.array (cutOut items (span values items.length))) := by
  have hsub : cutOut items (span values items.length) ⊆ items :=
    ((List.drop_sublist _ _).trans (List.take_sublist _ _)).subset
  obtain ⟨w, hw⟩ := @exists_weight? (.array (cutOut items (span values items.length))) 0
    (Nat.le_trans (Nat.le_of_eq (Nat.zero_add _)) (Nat.le_trans (Value.nesting_array_le_of_subset hsub) hn))
  refine .arrayMethod (m := .slice) hargs hx rfl rfl ?_
  unfold unlimited ArrayMethod.run chargeCopy
  dsimp only
  rw [hw]
  exact congrArg ending (bind_run_ok (charge_stepCap w ⟨frames, 0⟩))

/-- One text behind the other. -/
theorem HasValue.textConcat (hx : HasValue frames x (.string s)) (hy : HasValue frames y (.string t)) :
    HasValue frames (.methodCall x "concat" [y]) (.string (s ++ t)) :=
  .textMethod (m := .concat) (.cons hy .nil) hx rfl
    (congrArg ending (bind_run_ok (charge_stepCap _ ⟨frames, 0⟩)))

/-- The items of one array behind those of the other. -/
theorem HasValue.arrayConcat {items' : List Value} (hx : HasValue frames x (.array items))
    (hy : HasValue frames y (.array items')) (hn : (Value.array items).nesting ≤ maxNesting)
    (hn' : (Value.array items').nesting ≤ maxNesting) :
    HasValue frames (.methodCall x "concat" [y]) (.array (items ++ items')) := by
  obtain ⟨w, hw⟩ := @exists_totalWeight? [.array items, .array items']
    (List.forall_mem_cons.2 ⟨hn, List.forall_mem_singleton.2 hn'⟩)
  have happended : appended items [.array items'] = items ++ items' :=
    congrArg (items ++ ·) (List.append_nil items')
  refine .arrayMethod (m := .concat) (.cons hy .nil) hx rfl rfl ?_
  unfold unlimited ArrayMethod.run
  dsimp only
  rw [hw, happended]
  exact congrArg ending (bind_run_ok (charge_stepCap w ⟨frames, 0⟩))

theorem HasValue.indexOf (hx : HasValue frames x (.string s)) (hy : HasValue frames y (.string t)) :
    HasValue frames (.methodCall x "indexOf" [y]) (positionValue (indexOf? t.toList s.toList)) :=
  .textMethod (m := .indexOf) (.cons hy .nil) hx rfl rfl

theorem HasValue.textLength (hx : HasValue frames x (.string s)) :
    HasValue frames (.member x "length") (.integer (.ofNat s.length)) :=
  hx.member rfl

/-- The sum of two positions. -/
theorem HasValue.addPositions {m n : Nat} (h : m + n < 2 ^ 63) (hx : HasValue frames x (.integer (.ofNat m)))
    (hy : HasValue frames y (.integer (.ofNat n))) :
    HasValue frames (.binary (.arith .add) x y) (.integer (.ofNat (m + n))) := by
  have hm : (Int64.ofNat m).toInt = m := Int64.toInt_ofNat_of_lt (Nat.lt_of_le_of_lt (Nat.le_add_right m n) h)
  have hn : (Int64.ofNat n).toInt = n := Int64.toInt_ofNat_of_lt (Nat.lt_of_le_of_lt (Nat.le_add_left n m) h)
  have hsum : (Int64.ofNat (m + n)).toInt = (m + n : Nat) := Int64.toInt_ofNat_of_lt h
  have hexact : Arith.IsExact .add (Int64.ofNat m).toInt (Int64.ofNat n).toInt (Int64.ofNat (m + n)).toInt := by
    rw [hm, hn, hsum]
    exact Int.natCast_add m n
  have hvalue : numeric .add (.integer (.ofNat m)) (.integer (.ofNat n)) = .integer (.ofNat (m + n)) := by
    have harith := Value.arith?_of_isExact hexact
    unfold numeric
    dsimp only [Value.toNumeric]
    rw [harith]
  refine .arithmetic .add hx hy ?_
  change Except.ok (numeric _ _ _) = _
  rw [hvalue]

/-! ### Slices put together again -/

/-- The slices of a text before and behind a bound. -/
theorem exists_textSlices (hx : HasValue frames x (.string s)) (hz : HasValue frames z k)
    (hk : k.isNull = false) : ∃ front rest, front ++ rest = s ∧
      HasValue frames (.methodCall x "slice" [.integer 0, z]) (.string front) ∧
      HasValue frames (.methodCall x "slice" [z]) (.string rest) := by
  refine ⟨_, _, ?_, hx.textSlice (.cons (hasValue_integer 0) (.cons hz .nil)), hx.textSlice (.cons hz .nil)⟩
  rw [← String.ofList_append, cutOut_append s.toList hk, String.ofList_toList]

/-- The slices of an array before and behind a bound. -/
theorem exists_arraySlices (hx : HasValue frames x (.array items))
    (hn : (Value.array items).nesting ≤ maxNesting) (hz : HasValue frames z k) (hk : k.isNull = false) :
    ∃ front rest, front ++ rest = items ∧
      HasValue frames (.methodCall x "slice" [.integer 0, z]) (.array front) ∧
      HasValue frames (.methodCall x "slice" [z]) (.array rest) :=
  ⟨_, _, cutOut_append items hk, hx.arraySlice hn (.cons (hasValue_integer 0) (.cons hz .nil)),
    hx.arraySlice hn (.cons hz .nil)⟩

/-! ### Places -/

/-- The expression `x.slice(i, i + y.length)`. -/
def sliceAt (x y : Expr) (i : Nat) : Expr :=
  .methodCall x "slice"
    [.integer (.ofNat i), .binary (.arith .add) (.integer (.ofNat i)) (.member y "length")]

theorem HasValue.sliceAt (hx : HasValue frames x (.string s)) (hy : HasValue frames y (.string t)) {i : Nat}
    (h : i + t.length ≤ 2 ^ 53) :
    HasValue frames (sliceAt x y i) (textValue ((s.toList.drop i).take t.toList.length)) := by
  rw [String.length_toList, ← cutOut_position s.toList h]
  have hi : HasValue frames (.integer (.ofNat i)) (.integer (.ofNat i)) := hasValue_integer _
  have hend := HasValue.addPositions (Nat.lt_of_le_of_lt h (by decide)) hi hy.textLength
  exact hx.textSlice (.cons hi (.cons hend .nil))

/-- A text stands where the slice of its length is the text. -/
theorem textValue_take_iff {s t : List Char} : textValue (s.take t.length) = textValue t ↔ t <+: s := by
  unfold textValue
  rw [Value.string.injEq, String.ofList_inj, eq_comm, List.prefix_iff_eq_take]

/-- The place that is found is the first one with the text in it. -/
theorem exists_place (hx : HasValue frames x (.string s)) (hy : HasValue frames y (.string t))
    (hs : s.length < 2 ^ 63) : ∃ found, HasValue frames (.methodCall x "includes" [y]) (.boolean found) ∧
      (HasValue frames (.methodCall x "indexOf" [y]) (.integer (-1)) ↔ found = false) ∧
      (found = true → ∃ i, HasValue frames (.methodCall x "indexOf" [y]) (.integer (.ofNat i)) ∧
        i + t.length ≤ s.length ∧ (i + t.length ≤ 2 ^ 53 → HasValue frames (Script.sliceAt x y i) (.string t) ∧
          ∀ j < i, ∃ other ≠ t, HasValue frames (Script.sliceAt x y j) (.string other))) := by
  have hplace := hx.indexOf hy
  refine ⟨_, hx.includes hy, ?_, fun hfound => ?_⟩
  · have hsmall : ∀ n ∈ indexOf? t.toList s.toList, n < 2 ^ 63 := fun n hn => by
      have := (indexOf?_eq_some hn).1
      rw [String.length_toList, String.length_toList] at this
      omega
    rw [occursIn_eq_isSome, Option.isSome_eq_false_iff, Option.isNone_iff_eq_none]
    refine Iff.trans ?_ (positionValue_inj hsmall (by simp))
    exact ⟨fun h => hplace.unique h, fun h => (congrArg (HasValue frames _) h).mp hplace⟩
  · rw [occursIn_eq_isSome] at hfound
    obtain ⟨i, hi⟩ := Option.isSome_iff_exists.1 hfound
    rw [hi] at hplace
    obtain ⟨hle, hhere, hbefore⟩ := indexOf?_eq_some hi
    rw [String.length_toList, String.length_toList] at hle
    refine ⟨i, hplace, hle, fun hexact => ⟨?_, fun j hj => ?_⟩⟩
    · have hslice := hx.sliceAt hy hexact
      rw [textValue_take_iff.2 hhere] at hslice
      rwa [textValue, String.ofList_toList] at hslice
    · refine ⟨_, fun heq => hbefore j hj ?_, hx.sliceAt hy (i := j) (by omega)⟩
      rw [← textValue_take_iff, textValue, heq, textValue, String.ofList_toList]

end Calls

/-- **Positions agree.** The slices of a text or an array before and behind a bound that is not null give it
back, one behind the other. A search for a text gives -1 exactly if the text is not there, and else the
first position with a slice of its length that is the text. Bounds are doubles, so slices at positions
beyond `2 ^ 53` are left out; no text has `2 ^ 63` characters. -/
theorem slice_indexOf {frames : List Frame} {x y z xs : Expr} {s t : String} {items : List Value} {k : Value}
    (hx : HasValue frames x (.string s)) (hy : HasValue frames y (.string t))
    (hxs : HasValue frames xs (.array items)) (hn : (Value.array items).nesting ≤ maxNesting)
    (hz : HasValue frames z k) (hk : k.isNull = false) (hs : s.length < 2 ^ 63) :
    (∃ front rest, front ++ rest = s ∧
      HasValue frames (.methodCall x "slice" [.integer 0, z]) (.string front) ∧
      HasValue frames (.methodCall x "slice" [z]) (.string rest) ∧
      HasValue frames (.methodCall (.methodCall x "slice" [.integer 0, z]) "concat"
        [.methodCall x "slice" [z]]) (.string s)) ∧
    (∃ front rest, front ++ rest = items ∧
      HasValue frames (.methodCall xs "slice" [.integer 0, z]) (.array front) ∧
      HasValue frames (.methodCall xs "slice" [z]) (.array rest) ∧
      HasValue frames (.methodCall (.methodCall xs "slice" [.integer 0, z]) "concat"
        [.methodCall xs "slice" [z]]) (.array items)) ∧
    ∃ found, HasValue frames (.methodCall x "includes" [y]) (.boolean found) ∧
      (HasValue frames (.methodCall x "indexOf" [y]) (.integer (-1)) ↔ found = false) ∧
      (found = true → ∃ i, HasValue frames (.methodCall x "indexOf" [y]) (.integer (.ofNat i)) ∧
        i + t.length ≤ s.length ∧ (i + t.length ≤ 2 ^ 53 → HasValue frames (sliceAt x y i) (.string t) ∧
          ∀ j < i, ∃ other ≠ t, HasValue frames (sliceAt x y j) (.string other))) := by
  refine ⟨?_, ?_, exists_place hx hy hs⟩
  · obtain ⟨front, rest, heq, hfront, hrest⟩ := exists_textSlices hx hz hk
    exact ⟨front, rest, heq, hfront, hrest, heq ▸ hfront.textConcat hrest⟩
  · obtain ⟨front, rest, rfl, hfront, hrest⟩ := exists_arraySlices hxs hn hz hk
    have hparts : (Value.array front).nesting ≤ maxNesting ∧ (Value.array rest).nesting ≤ maxNesting :=
      ⟨(Value.nesting_array_le_of_subset (List.subset_append_left _ _)).trans hn,
        (Value.nesting_array_le_of_subset (List.subset_append_right _ _)).trans hn⟩
    exact ⟨front, rest, rfl, hfront, hrest, hfront.arrayConcat hrest hparts.1 hparts.2⟩

/-- A bound that is no number, and a text of characters of several bytes. -/
theorem slice_indexOf_accented :
    (∃ front rest, front ++ rest = "éàé" ∧
      HasValue [] (.methodCall (.string "éàé") "slice" [.integer 0, .identifier "NaN"]) (.string front) ∧
      HasValue [] (.methodCall (.string "éàé") "slice" [.identifier "NaN"]) (.string rest)) ∧
    (∃ i, HasValue [] (.methodCall (.string "éàé") "indexOf" [.string "àé"]) (.integer (.ofNat i)) ∧
      HasValue [] (sliceAt (.string "éàé") (.string "àé") i) (.string "àé")) := by
  have hx : HasValue [] (.string "éàé") (.string "éàé") := hasValue_string _
  have hy : HasValue [] (.string "àé") (.string "àé") := hasValue_string _
  have hxs : HasValue [] (.array [.integer 1, .array []]) (.array [.integer 1, .array []]) :=
    .array (.cons (hasValue_integer 1) (.cons (.array .nil) .nil))
  have hz : HasValue [] (.identifier "NaN") (.float Double.nan) := hasValue_iff.2 rfl
  have hincludes := hx.includes hy
  have hoccurs : occursIn "àé".toList "éàé".toList = true := by decide
  rw [hoccurs] at hincludes
  obtain ⟨⟨front, rest, heq, hfront, hrest, -⟩, -, found, hfound, -, hplace⟩ :=
    slice_indexOf hx hy hxs (by decide) hz rfl (by decide)
  obtain ⟨i, hi, hle, hslices⟩ := hplace (Value.boolean.inj (hfound.unique hincludes))
  have hsmall : "éàé".length ≤ 2 ^ 53 := by decide
  exact ⟨⟨front, rest, heq, hfront, hrest⟩, i, hi, (hslices (Nat.le_trans hle hsmall)).1⟩

end LiveNotes.Script
