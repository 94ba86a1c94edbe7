import LiveNotes.Script.Global
import LiveNotes.Script.Machine
import LiveNotes.Proofs.Number.TextLength

/-!
The size of a value, and the size that a script can still draw out of it without paying. A text can
grow when its letters change case, a number becomes its decimal text, and a call for each item of an
array can give more than the call costs.

* `Value.size`: the size that a copy is charged for;
* `Value.worth unit`: what can be drawn out of a value where a step pays for the size `unit`;
* `size_le_worth`, `worth_le`: the size is at most the worth, and the worth is paid for by a copy;
* `weight_toText`, `worth_objectKeys` and the lemmas beside them: what is drawn out of a value is
  worth no more than the value.
-/

namespace LiveNotes

open Number Text

namespace Value

/-! ### Size and worth -/

mutual

/-- The bytes of all texts and names in a value, with its items and entries. -/
def size : Value → Nat
  | .string s => s.utf8ByteSize
  | .array items => items.length + itemsSize items
  | .object entries => entries.length + entriesSize entries
  | _ => 0

/-- The sizes of values together. -/
def itemsSize : List Value → Nat
  | [] => 0
  | v :: vs => size v + itemsSize vs

/-- The sizes of entries together, names included. -/
def entriesSize : List (String × Value) → Nat
  | [] => 0
  | (k, v) :: es => k.utf8ByteSize + size v + entriesSize es

end

mutual

/-- What can be drawn out of a value. An array is worth its items, and at least a step for each of
them but two: the name and the value of an entry become an array of two that nobody paid for. -/
def worth (unit : Nat) : Value → Nat
  | .string s => weight s.toList
  | .array items => max (unit * (items.length - 2)) (itemsWorth unit items)
  | .object entries => longestText + max (unit * entries.length) (entriesWorth unit entries)
  | _ => longestText

/-- What values are worth as items, each with its place. -/
def itemsWorth (unit : Nat) : List Value → Nat
  | [] => 0
  | v :: vs => 1 + worth unit v + itemsWorth unit vs

/-- What entries are worth, each with places for an array of its name and its value. -/
def entriesWorth (unit : Nat) : List (String × Value) → Nat
  | [] => 0
  | (k, v) :: es => 3 + weight k.toList + worth unit v + entriesWorth unit es

end

end Value

open Value

-- The equations of the worth are derived here, once for all the proofs below.
attribute [local simp] worth itemsWorth entriesWorth

section

variable (unit : Nat)

theorem itemsWorth_append (vs ws : List Value) :
    itemsWorth unit (vs ++ ws) = itemsWorth unit vs + itemsWorth unit ws := by
  induction vs with
  | nil => simp [itemsWorth]
  | cons v vs ih => simp [itemsWorth, ih, Nat.add_assoc]

theorem itemsWorth_reverse (vs : List Value) : itemsWorth unit vs.reverse = itemsWorth unit vs := by
  induction vs with
  | nil => rfl
  | cons v vs ih => simp [itemsWorth_append, itemsWorth, ih, Nat.add_comm]

theorem worth_le_itemsWorth {v : Value} {vs : List Value} (h : v ∈ vs) :
    1 + worth unit v ≤ itemsWorth unit vs := by
  obtain ⟨before, behind, rfl⟩ := List.append_of_mem h
  rw [itemsWorth_append, itemsWorth]
  omega

theorem itemsWorth_le_of_sublist {vs ws : List Value} (h : vs.Sublist ws) :
    itemsWorth unit vs ≤ itemsWorth unit ws := by
  induction h with
  | slnil => exact Nat.le_refl _
  | cons v _ ih => rw [itemsWorth]; omega
  | cons_cons v _ ih => simp only [itemsWorth]; omega

/-- Fewer items are worth no more. -/
theorem worth_le_of_sublist {vs ws : List Value} (h : vs.Sublist ws) :
    worth unit (.array vs) ≤ worth unit (.array ws) := by
  have := h.length_le
  have hl := Nat.mul_le_mul_left unit (show vs.length - 2 ≤ ws.length - 2 by omega)
  have := itemsWorth_le_of_sublist unit h
  simp only [worth]
  omega

/-- An item is worth less than its array. -/
theorem worth_le_of_mem {v : Value} {vs : List Value} (h : v ∈ vs) :
    worth unit v ≤ worth unit (.array vs) := by
  have := worth_le_itemsWorth unit h
  simp only [worth]
  omega

theorem worth_le_entriesWorth {k : String} {v : Value} {es : List (String × Value)}
    (h : (k, v) ∈ es) : 3 + weight k.toList + worth unit v ≤ entriesWorth unit es := by
  induction es with
  | nil => cases h
  | cons e es ih =>
    rcases List.mem_cons.1 h with rfl | h
    · rw [entriesWorth]
      omega
    · have := ih h
      rw [entriesWorth]
      omega

/-- A member is worth less than its object. -/
theorem worth_get? {es : Entries Value} {name : String} {v : Value} (h : es.get? name = some v) :
    worth unit v ≤ worth unit (.object es) := by
  have := worth_le_entriesWorth unit (Entries.mem_of_get? h)
  simp only [worth]
  omega

end

/-! ### Size, worth and the charge for a copy -/

section

variable (unit : Nat)

mutual

theorem size_le_worth : ∀ v : Value, size v ≤ worth unit v
  | .string s => by
    rw [size, worth, ← bytes_toList]
    exact bytes_le_weight _
  | .array items => by
    have := itemsSize_le items
    simp only [size, worth]
    omega
  | .object entries => by
    have := entriesSize_le entries
    simp only [size, worth]
    omega
  | .null | .boolean _ | .integer _ | .float _ => Nat.zero_le _

theorem itemsSize_le : ∀ vs : List Value, vs.length + itemsSize vs ≤ itemsWorth unit vs
  | [] => Nat.le_refl _
  | v :: vs => by
    have := size_le_worth v
    have := itemsSize_le vs
    simp only [List.length_cons, itemsSize, itemsWorth]
    omega

theorem entriesSize_le : ∀ es : List (String × Value), es.length + entriesSize es ≤ entriesWorth unit es
  | [] => Nat.le_refl _
  | (k, v) :: es => by
    have := size_le_worth v
    have := entriesSize_le es
    have := bytes_le_weight k.toList
    rw [bytes_toList] at this
    simp only [List.length_cons, entriesSize, entriesWorth]
    omega

end

/-- A string is worth at most three times its bytes. -/
theorem weight_le_size (s : String) : weight s.toList ≤ 3 * s.utf8ByteSize := by
  rw [← bytes_toList]
  exact weight_le_bytes _

/-- A text that is charged by its bytes is paid for. -/
theorem weight_le_paid (hu : 3 ≤ unit) (s : String) : weight s.toList ≤ unit * s.utf8ByteSize :=
  Nat.le_trans (weight_le_size s) (Nat.mul_le_mul_right _ hu)

section

variable (hu : longestText + 3 ≤ unit)
include hu

mutual

/-- The copy of a value pays for its worth. -/
theorem worth_le : ∀ v : Value, worth unit v ≤ longestText + unit * size v
  | .string s => by
    have := weight_le_paid unit (by omega) s
    simp only [size, worth]
    omega
  | .array items => by
    have := itemsWorth_le items
    have := Nat.mul_le_mul_left unit (Nat.sub_le items.length 2)
    simp only [size, worth, Nat.mul_add]
    omega
  | .object entries => by
    have := entriesWorth_le entries
    simp only [size, worth, Nat.mul_add]
    omega
  | .null | .boolean _ | .integer _ | .float _ => Nat.le_add_right _ _

theorem itemsWorth_le : ∀ vs : List Value,
    itemsWorth unit vs ≤ unit * vs.length + unit * itemsSize vs
  | [] => Nat.zero_le _
  | v :: vs => by
    have := worth_le v
    have := itemsWorth_le vs
    simp only [List.length_cons, itemsSize, itemsWorth, Nat.mul_add]
    omega

theorem entriesWorth_le : ∀ es : List (String × Value),
    entriesWorth unit es ≤ unit * es.length + unit * entriesSize es
  | [] => Nat.zero_le _
  | (k, v) :: es => by
    have := worth_le v
    have := entriesWorth_le es
    have := weight_le_paid unit (by omega) k
    simp only [List.length_cons, entriesSize, entriesWorth, Nat.mul_add]
    omega

end

theorem worth_array_le (items : List Value) : worth unit (.array items) ≤ unit * size (.array items) := by
  have := itemsWorth_le unit hu items
  have := Nat.mul_le_mul_left unit (Nat.sub_le items.length 2)
  simp only [size, worth, Nat.mul_add]
  omega

end

/-! ### Weights that are charged -/

mutual

/-- The weight that a copy is charged for is the size. -/
theorem weight?_eq_size (depth : Nat) : ∀ (v : Value) {w : Nat}, Script.weight? depth v = some w → w = size v
  | .string s, w, h => by cases h; rfl
  | .array items, w, h => by
    rw [Script.weight?] at h
    split at h
    · cases h
    · exact itemsWeight?_eq_size _ _ items h
  | .object entries, w, h => by
    rw [Script.weight?] at h
    split at h
    · cases h
    · exact entriesWeight?_eq_size _ _ entries h
  | .null, w, h | .boolean _, w, h | .integer _, w, h | .float _, w, h => by cases h; rfl

theorem itemsWeight?_eq_size (depth total : Nat) : ∀ (vs : List Value) {w : Nat},
    Script.itemsWeight? depth total vs = some w → w = total + itemsSize vs
  | [], w, h => by cases h; rfl
  | v :: vs, w, h => by
    rw [Script.itemsWeight?] at h
    split at h
    · next w' hv =>
      have := weight?_eq_size depth v hv
      have := itemsWeight?_eq_size depth (total + w') vs h
      rw [itemsSize]
      omega
    · cases h

theorem entriesWeight?_eq_size (depth total : Nat) : ∀ (es : List (String × Value)) {w : Nat},
    Script.entriesWeight? depth total es = some w → w = total + entriesSize es
  | [], w, h => by cases h; rfl
  | (k, v) :: es, w, h => by
    rw [Script.entriesWeight?] at h
    split at h
    · next w' hv =>
      have := weight?_eq_size depth v hv
      have := entriesWeight?_eq_size depth (total + k.utf8ByteSize + w') es h
      rw [entriesSize]
      omega
    · cases h

end

end

/-! ### Texts of values -/

/-- The text of an item inside a joined text. -/
def itemText (v : Value) : String := if v.isNull then "" else v.toText

theorem itemTexts_eq (done : List String) (vs : List Value) :
    itemTexts done vs = done.reverse ++ vs.map itemText := by
  induction vs generalizing done with
  | nil => simp [itemTexts]
  | cons v vs ih => rw [itemTexts, ih]; simp [itemText]

theorem weight_intercalate (ts : List String) :
    weight (String.intercalate "," ts).toList ≤ (ts.map fun t => 1 + weight t.toList).sum := by
  induction ts with
  | nil => simp
  | cons t ts ih =>
    cases ts with
    | nil => simp
    | cons u ts =>
      rw [String.intercalate_cons_cons, String.toList_append, String.toList_append]
      simp only [weight_append, List.map_cons, List.sum_cons] at ih ⊢
      change weight t.toList + 1 + _ ≤ _
      omega

section

variable (unit : Nat)

mutual

/-- The text of a value weighs no more than the value is worth. -/
theorem weight_toText : ∀ v : Value, weight v.toText.toList ≤ worth unit v
  | .null => show weight "null".toList ≤ longestText by decide
  | .boolean true => show weight "true".toList ≤ longestText by decide
  | .boolean false => show weight "false".toList ≤ longestText by decide
  | .integer n => Nat.le_trans (weight_integerText n) (show 20 ≤ longestText by decide)
  | .float x => weight_plain x
  | .string s => Nat.le_refl _
  | .array items => by
    rw [toText, itemTexts_eq]
    exact Nat.le_trans (weight_intercalate _) (Nat.le_trans (weight_itemTexts items) (Nat.le_max_right _ _))
  | .object entries =>
    Nat.le_trans (show weight "[object Object]".toList ≤ longestText by decide) (Nat.le_add_right _ _)

theorem weight_itemTexts : ∀ vs : List Value,
    ((vs.map itemText).map fun t => 1 + weight t.toList).sum ≤ itemsWorth unit vs
  | [] => Nat.le_refl _
  | v :: vs => by
    have hv := weight_toText v
    have := weight_itemTexts vs
    have : weight (itemText v).toList ≤ worth unit v := by
      unfold itemText
      split
      · exact Nat.zero_le _
      · exact hv
    simp only [List.map_cons, List.sum_cons, itemsWorth] at this ⊢
    omega

end

end

/-- The bytes of joined texts are those of the texts and of the separators between them. -/
theorem utf8ByteSize_intercalate (sep : String) (ts : List String) :
    (String.intercalate sep ts).utf8ByteSize =
      (ts.map String.utf8ByteSize).sum + sep.utf8ByteSize * (ts.length - 1) := by
  induction ts with
  | nil => simp
  | cons t ts ih =>
    cases ts with
    | nil => simp
    | cons u ts =>
      rw [String.intercalate_cons_cons, String.utf8ByteSize_append, String.utf8ByteSize_append, ih]
      simp only [List.map_cons, List.sum_cons, List.length_cons, Nat.add_sub_cancel, Nat.mul_add]
      omega

/-! ### The parts of an object -/

section

variable (unit : Nat)

theorem worth_objectValues (v : Value) : worth unit (.array (Script.objectValues v)) ≤ worth unit v := by
  cases v with
  | object entries =>
    have values : itemsWorth unit (entries.map (·.2)) ≤ entriesWorth unit entries := by
      induction entries with
      | nil => exact Nat.le_refl _
      | cons e es ih =>
        simp only [List.map_cons, itemsWorth, entriesWorth]
        omega
    have := Nat.mul_le_mul_left unit (Nat.sub_le entries.length 2)
    simp only [Script.objectValues, worth, List.length_map]
    omega
  | array items => exact Nat.le_refl _
  | _ => exact Nat.zero_le _

theorem worth_objectEntries (v : Value) : worth unit (.array (Script.objectEntries v)) ≤ worth unit v := by
  cases v with
  | object entries =>
    have pairs : itemsWorth unit (entries.map fun e => .array [.string e.1, e.2]) =
        entriesWorth unit entries := by
      induction entries with
      | nil => rfl
      | cons e es ih =>
        simp only [List.map_cons, itemsWorth, entriesWorth, worth, ih, List.length_cons,
          List.length_nil, Nat.sub_self, Nat.mul_zero]
        omega
    have := Nat.mul_le_mul_left unit (Nat.sub_le entries.length 2)
    simp only [Script.objectEntries, worth, List.length_map, pairs]
    omega
  | _ => exact Nat.zero_le _

/-- The positions of an array are worth little more than the array, as long as they have at most
twenty digits. -/
theorem worth_objectKeys (hu : 21 ≤ unit) {v : Value}
    (hv : ∀ items, v = .array items → items.length ≤ tenTo 20) :
    worth unit (.array (Script.objectKeys v)) ≤ worth unit v + 42 := by
  cases v with
  | object entries =>
    clear hv
    have names : itemsWorth unit (entries.map fun e => .string e.1) ≤ entriesWorth unit entries := by
      induction entries with
      | nil => exact Nat.le_refl _
      | cons e es ih =>
        simp only [List.map_cons, itemsWorth, entriesWorth, worth]
        omega
    have := Nat.mul_le_mul_left unit (Nat.sub_le entries.length 2)
    simp only [Script.objectKeys, worth, List.length_map]
    omega
  | array items =>
    have digits : ∀ is : List Nat, (∀ i ∈ is, i < tenTo 20) →
        itemsWorth unit (is.map fun i => .string i.repr) ≤ 21 * is.length := by
      intro is his
      induction is with
      | nil => exact Nat.le_refl _
      | cons i is ih =>
        have := weight_natText (by decide) (his i List.mem_cons_self)
        have := ih fun j hj => his j (List.mem_cons_of_mem _ hj)
        simp only [List.map_cons, itemsWorth, worth, List.length_cons]
        omega
    have := digits (List.range items.length) fun i hi =>
      Nat.lt_of_lt_of_le (List.mem_range.1 hi) (hv items rfl)
    rw [List.length_range] at this
    have := Nat.mul_le_mul_right (items.length - 2) hu
    simp only [Script.objectKeys, worth, List.length_map, List.length_range]
    omega
  | _ => exact Nat.zero_le _

end

/-- An entry that is set adds its name and its value at most. -/
theorem entriesWorth_insert (unit : Nat) (es : Entries Value) (name : String) (v : Value) :
    entriesWorth unit (es.insert name v) ≤
      entriesWorth unit es + (3 + weight name.toList + worth unit v) := by
  fun_induction Entries.insert es name v with
  | case1 => simp [entriesWorth]
  | case2 =>
    simp only [entriesWorth]
    omega
  | case3 _ _ _ _ ih =>
    simp only [entriesWorth]
    omega

theorem length_insert_le (es : Entries Value) (name : String) (v : Value) :
    (es.insert name v).length ≤ es.length + 1 := by
  fun_induction Entries.insert es name v with
  | case1 => simp
  | case2 => simp
  | case3 _ _ _ _ ih =>
    simp only [List.length_cons]
    omega

end LiveNotes
