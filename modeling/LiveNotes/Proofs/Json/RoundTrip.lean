import LiveNotes.Json.Value
import LiveNotes.Script.Global
import LiveNotes.Proofs.Json.Reader
import LiveNotes.Proofs.Json.Writer
import LiveNotes.Proofs.Value.Nesting
import LiveNotes.Value.Json

/-!
The JSON text of a value without doubles is read back as that value.

* `Value.tree`: the tree that both texts of a value write;
* `Value.writes_toJson`, `Value.writes_prettyAt`: the texts follow the grammar;
* `Json.toValueWithin?_tree`: the tree is turned into the value again;
* `readValue?_toJson`: all of it together, also for scripts.
-/

namespace LiveNotes

open Number

namespace Value

/-! ### Values without doubles -/

mutual

/-- No part of the value is a double. -/
def floatFree : Value → Bool
  | .float _ => false
  | .array items => itemsFloatFree items
  | .object entries => entriesFloatFree entries
  | _ => true

/-- No part of any item is a double. -/
def itemsFloatFree : List Value → Bool
  | [] => true
  | v :: vs => v.floatFree && itemsFloatFree vs

/-- No part of the value of any entry is a double. -/
def entriesFloatFree : List (String × Value) → Bool
  | [] => true
  | (_, v) :: es => v.floatFree && entriesFloatFree es

end

theorem itemsFloatFree_iff {vs : List Value} :
    itemsFloatFree vs = true ↔ ∀ v ∈ vs, v.floatFree = true := by
  induction vs with
  | nil => simp [itemsFloatFree]
  | cons v vs ih => simp [itemsFloatFree, ih]

theorem entriesFloatFree_iff {es : List (String × Value)} :
    entriesFloatFree es = true ↔ ∀ e ∈ es, e.2.floatFree = true := by
  induction es with
  | nil => simp [entriesFloatFree]
  | cons e es ih => obtain ⟨k, v⟩ := e; simp [entriesFloatFree, ih]

/-! ### The tree of a value -/

mutual

/-- The JSON tree of a value. A double is left out as null, its digits are not told here. -/
def tree : Value → Json.Node
  | .null | .float _ => .null
  | .boolean b => .boolean b
  | .integer n => .number (Json.wholeNumber n.toInt)
  | .string s => .text s
  | .array items => .array (itemsTree items)
  | .object entries => .object (entriesTree entries)

/-- The trees of items. -/
def itemsTree : List Value → List Json.Node
  | [] => []
  | v :: vs => v.tree :: itemsTree vs

/-- The names of entries with the trees of their values. -/
def entriesTree : List (String × Value) → List (String × Json.Node)
  | [] => []
  | (k, v) :: es => (k, v.tree) :: entriesTree es

end

theorem itemsTree_eq (vs : List Value) : itemsTree vs = vs.map tree := by
  induction vs with
  | nil => rfl
  | cons v vs ih => rw [itemsTree, ih, List.map_cons]

theorem entriesTree_eq (es : List (String × Value)) :
    entriesTree es = es.map fun e => (e.1, e.2.tree) := by
  induction es with
  | nil => rfl
  | cons e es ih => rw [entriesTree, ih, List.map_cons]

/-! ### The texts follow the grammar -/

theorem itemsJson_eq (done : List String) (vs : List Value) :
    itemsJson done vs = done.reverse ++ vs.map toJson := by
  induction vs generalizing done with
  | nil => simp [itemsJson]
  | cons v vs ih => simp [itemsJson, ih]

theorem entriesJson_eq (done : List String) (es : List (String × Value)) :
    entriesJson done es = done.reverse ++ es.map fun e => Json.quote e.1 ++ ":" ++ e.2.toJson := by
  induction es generalizing done with
  | nil => simp [entriesJson]
  | cons e es ih => simp [entriesJson, ih]

theorem itemsPretty_eq (depth : Nat) (done : List String) (vs : List Value) :
    itemsPretty depth done vs = done.reverse ++ vs.map (prettyAt depth) := by
  induction vs generalizing done with
  | nil => simp [itemsPretty]
  | cons v vs ih => simp [itemsPretty, ih]

theorem entriesPretty_eq (depth : Nat) (done : List String) (es : List (String × Value)) :
    entriesPretty depth done es =
      done.reverse ++ es.map fun e => Json.quote e.1 ++ ": " ++ e.2.prettyAt depth := by
  induction es generalizing done with
  | nil => simp [entriesPretty]
  | cons e es ih => simp [entriesPretty, ih]

open Json

theorem writes_scalarJson {v : Value} (hc : v.isContainer = false) (hf : v.floatFree = true) :
    Writes (.value v.tree) v.scalarJson.toList := by
  cases v with
  | null => exact .nullWord
  | boolean b =>
    cases b with
    | false => exact .falseWord
    | true => exact .trueWord
  | integer n => exact .number (numberWritten_integerText n)
  | float x => cases hf
  | string s => exact writes_quote s
  | array items => cases hc
  | object entries => cases hc

theorem memberWritten_compact {e : String × Value} (h : Writes (.value e.2.tree) e.2.toJson.toList) :
    MemberWritten (e.1, e.2.tree) (quote e.1 ++ ":" ++ e.2.toJson).toList := by
  refine ⟨_, [], _, nameWritten_quote e.1, blank_nil, h, ?_⟩
  simp

theorem memberWritten_pretty {e : String × Value} {depth : Nat}
    (h : Writes (.value e.2.tree) (e.2.prettyAt depth).toList) :
    MemberWritten (e.1, e.2.tree) (quote e.1 ++ ": " ++ e.2.prettyAt depth).toList := by
  refine ⟨_, [' '], _, nameWritten_quote e.1, by simp [Blank, isSpace], h, ?_⟩
  simp

theorem toJson_scalar {v : Value} (hc : v.isContainer = false) : v.toJson = v.scalarJson := by
  cases v with
  | array items => cases hc
  | object entries => cases hc
  | _ => rw [toJson] <;> nofun

theorem prettyAt_scalar {v : Value} (hc : v.isContainer = false) (depth : Nat) :
    v.prettyAt depth = v.scalarJson := by
  cases v with
  | array items => cases hc
  | object entries => cases hc
  | _ => rw [prettyAt] <;> nofun

/-- The compact text of a value writes its tree. -/
theorem writes_toJson (v : Value) (hf : v.floatFree = true) :
    Writes (.value v.tree) v.toJson.toList := by
  induction v using induction_parts with
  | scalar v hc =>
    rw [toJson_scalar hc]
    exact writes_scalarJson hc hf
  | array items ih =>
    rw [floatFree, itemsFloatFree_iff] at hf
    rw [tree, itemsTree_eq, toJson, itemsJson_eq, List.reverse_nil, List.nil_append]
    apply writes_array
    rw [List.forall₂_map_left_iff, List.forall₂_map_right_iff, List.forall₂_same]
    exact fun v hv => ih v hv (hf v hv)
  | object entries ih =>
    rw [floatFree, entriesFloatFree_iff] at hf
    rw [tree, entriesTree_eq, toJson, entriesJson_eq, List.reverse_nil, List.nil_append]
    apply writes_object
    rw [List.forall₂_map_left_iff, List.forall₂_map_right_iff, List.forall₂_same]
    exact fun e he => memberWritten_compact (ih e he (hf e he))

/-- The indented text of a value writes its tree, at any depth. -/
theorem writes_prettyAt (v : Value) (hf : v.floatFree = true) (depth : Nat) :
    Writes (.value v.tree) (v.prettyAt depth).toList := by
  induction v using induction_parts generalizing depth with
  | scalar v hc =>
    rw [prettyAt_scalar hc]
    exact writes_scalarJson hc hf
  | array items ih =>
    rw [floatFree, itemsFloatFree_iff] at hf
    cases items with
    | nil =>
      rw [tree, itemsTree, prettyAt]
      · exact .emptyArray blank_nil
      · nofun
      · nofun
    | cons v vs =>
      have hparts : List.Forall₂ (fun n part => Writes (.value n) part.toList)
          ((v :: vs).map tree) ((v :: vs).map (prettyAt (depth + 1))) := by
        rw [List.forall₂_map_left_iff, List.forall₂_map_right_iff, List.forall₂_same]
        exact fun v hv => ih v hv (hf v hv) (depth + 1)
      rw [tree, itemsTree_eq, prettyAt, itemsPretty_eq, List.reverse_nil, List.nil_append]
      exact writes_arrayBlock depth hparts
  | object entries ih =>
    rw [floatFree, entriesFloatFree_iff] at hf
    cases entries with
    | nil =>
      rw [tree, entriesTree, prettyAt]
      · exact .emptyObject blank_nil
      · nofun
      · nofun
    | cons e es =>
      have hparts : List.Forall₂ (fun m part => MemberWritten m part.toList)
          ((e :: es).map fun e => (e.1, e.2.tree))
          ((e :: es).map fun e => quote e.1 ++ ": " ++ e.2.prettyAt (depth + 1)) := by
        rw [List.forall₂_map_left_iff, List.forall₂_map_right_iff, List.forall₂_same]
        exact fun e he => memberWritten_pretty (ih e he (hf e he) (depth + 1))
      rw [tree, entriesTree_eq, prettyAt, entriesPretty_eq, List.reverse_nil, List.nil_append]
      exact writes_objectBlock depth hparts

end Value

namespace Json

open Value

/-! ### The tree is turned into the value -/

/-- Digits of a number that fits in 64 bits are all taken. -/
theorem takeWhole_eq (n : Nat) (ds : List Char) (h : Nat.ofDigitChars 10 ds n < twoTo 64) :
    Significand.takeWhole ⟨n, 0⟩ ds = ⟨Nat.ofDigitChars 10 ds n, 0⟩ := by
  induction ds generalizing n with
  | nil => rfl
  | cons c ds ih =>
    rw [Nat.ofDigitChars_cons] at h ⊢
    have hle : 10 * n + (c.toNat - '0'.toNat) ≤
        Nat.ofDigitChars 10 ds (10 * n + (c.toNat - '0'.toNat)) := by
      rw [Nat.ofDigitChars_eq_ofDigitChars_zero]
      have := Nat.le_mul_of_pos_left (10 * n + (c.toNat - '0'.toNat))
        (Nat.pow_pos (n := ds.length) (show 0 < 10 by decide))
      omega
    have hstep : 10 * n + (c.toNat - '0'.toNat) = n * 10 + (c.toNat - 48) := by
      rw [Nat.mul_comm]
      rfl
    have hfits : Significand.fits ⟨n, 0⟩ c = true := by
      rw [Significand.fits, decide_eq_true_eq, ← hstep]
      omega
    rw [Significand.takeWhole, if_pos ⟨rfl, hfits⟩]
    dsimp only
    rw [← hstep, ih _ h]

theorem takeWhole_toDigits {n : Nat} (h : n < twoTo 64) :
    Significand.takeWhole ⟨0, 0⟩ (Nat.toDigits 10 n) = ⟨n, 0⟩ := by
  have hvalue : Nat.ofDigitChars 10 (Nat.toDigits 10 n) 0 = n := Nat.ofDigitChars_ten_toDigits
  rw [takeWhole_eq 0 _ (by rw [hvalue]; exact h), hvalue]

/-- The digits of a whole number are read as that number. -/
theorem read?_wholeNumber (n : Int64) :
    (wholeNumber n.toInt).read?.map Numeric.toValue = some (.integer n) := by
  have hmin := Int64.le_toInt n
  have hmax := Int64.toInt_lt n
  have hsize : n.toInt.natAbs < twoTo 64 := by
    have : twoTo 64 = 18446744073709551616 := rfl
    omega
  rw [NumberText.read?, wholeNumber, takeWhole_toDigits hsize]
  generalize hm : n.toInt.natAbs = m
  by_cases hneg : n.toInt < 0
  · have hne : m ≠ 0 := by omega
    have hle : m ≤ twoTo 63 := by
      have : twoTo 63 = 9223372036854775808 := rfl
      omega
    have habs : -(m : Int) = n.toInt := by omega
    simp [hneg, hne, hle, habs, Numeric.toValue]
  · have habs : n.toInt = m := by omega
    have hfit : fit? m = some n := fit?_eq_some.2 habs
    simp [hneg, Numeric.toValue, hfit]

theorem itemValues?_eq {room : Nat} {vs : List Value}
    (h : ∀ v ∈ vs, v.tree.toValueWithin? room = some v) (done : List Value) :
    itemValues? room done (vs.map tree) = some (done.reverse ++ vs) := by
  induction vs generalizing done with
  | nil => simp [itemValues?]
  | cons v vs ih =>
    obtain ⟨hv, hvs⟩ := List.forall_mem_cons.1 h
    simp [itemValues?, hv, ih hvs]

theorem memberValues?_eq {room : Nat} {es : List (String × Value)}
    (h : ∀ e ∈ es, e.2.tree.toValueWithin? room = some e.2) (done : List (String × Value)) :
    memberValues? room done (es.map fun e => (e.1, e.2.tree)) = some (done.reverse ++ es) := by
  induction es generalizing done with
  | nil => simp [memberValues?]
  | cons e es ih =>
    obtain ⟨he, hes⟩ := List.forall_mem_cons.1 h
    simp [memberValues?, he, ih hes]

/-- The tree of a value without doubles is turned into the value, where it nests within the room. -/
theorem toValueWithin?_tree (v : Value) (hw : v.WellFormed) (hf : v.floatFree = true) {room : Nat}
    (hn : v.nesting ≤ room) : v.tree.toValueWithin? room = some v := by
  induction v using induction_parts generalizing room with
  | scalar v hc =>
    cases v with
    | null | boolean _ | string _ => rfl
    | integer n => exact read?_wholeNumber n
    | float x => cases hf
    | array items => cases hc
    | object entries => cases hc
  | array items ih =>
    rw [WellFormed, wellFormedItems_iff] at hw
    rw [floatFree, itemsFloatFree_iff] at hf
    obtain ⟨room, rfl⟩ := Nat.exists_eq_add_of_le' (Nat.le_trans (Nat.le_add_left 1 _) hn)
    have hn' := itemsNesting_le_iff.1 (Nat.le_of_succ_le_succ hn)
    have hitems : ∀ v ∈ items, v.tree.toValueWithin? room = some v := fun v hv =>
      ih v hv (hw v hv) (hf v hv) (hn' v hv)
    rw [tree, itemsTree_eq, Node.toValueWithin?, itemValues?_eq hitems]
    rfl
  | object entries ih =>
    rw [WellFormed, wellFormedEntries_iff] at hw
    rw [floatFree, entriesFloatFree_iff] at hf
    obtain ⟨room, rfl⟩ := Nat.exists_eq_add_of_le' (Nat.le_trans (Nat.le_add_left 1 _) hn)
    have hn' := entriesNesting_le_iff.1 (Nat.le_of_succ_le_succ hn)
    have hentries : ∀ e ∈ entries, e.2.tree.toValueWithin? room = some e.2 := fun e he =>
      ih e he (hw.2 e he) (hf e he) (hn' e he)
    rw [tree, entriesTree_eq, Node.toValueWithin?, memberValues?_eq hentries, Option.map_some,
      List.reverse_nil, List.nil_append, Entries.ofList_of_nodup hw.1]

/-- A text of the grammar that writes the tree of a value is read as the value. -/
theorem readValue?_of_writes {v : Value} {text : String} (h : Writes (.value v.tree) text.toList)
    (hw : v.WellFormed) (hf : v.floatFree = true) (hn : v.nesting ≤ maxNesting) :
    readValue? text = some v := by
  rw [readValue?, (isText_of_writes h).read?]
  exact toValueWithin?_tree v hw hf hn

end Json

open Json

/-- A value without doubles that nests within the limit has two texts, compact and indented. Both
are JSON for the same tree and are read as the value itself, with its whole numbers and with the
names of its objects in order; scripts write the compact one and read it likewise. -/
theorem Value.readValue?_toJson {v : Value} (hw : v.WellFormed) (hf : v.floatFree = true)
    (hn : v.nesting ≤ maxNesting) :
    (∃ n, IsText n v.toJson ∧ IsText n v.toPrettyJson) ∧
      readValue? v.toJson = some v ∧ readValue? v.toPrettyJson = some v ∧
      Script.Global.json.method "stringify" [v] = .ok (.string v.toJson) ∧
      Script.Global.json.method "parse" [.string v.toJson] = .ok v := by
  have hcompact := writes_toJson v hf
  have hpretty := writes_prettyAt v hf 0
  have hread := readValue?_of_writes hcompact hw hf hn
  refine ⟨⟨v.tree, isText_of_writes hcompact, isText_of_writes hpretty⟩, hread,
    readValue?_of_writes hpretty hw hf hn, rfl, ?_⟩
  have htext : (Value.string v.toJson).toText = v.toJson := rfl
  simp only [Script.Global.method, List.headD_cons, htext, hread]

/-- Names out of order, a control above the letters, empty containers and the least whole number. -/
theorem Value.readValue?_toJson_nested :
    let v : Value := .object [("z", .array [.integer Int64.minValue, .array [], .object []]),
      ("a\"\\\x85", .object [("b", .null), ("a", .string "1.0\n")])]
    (v.WellFormed ∧ v.floatFree = true ∧ v.nesting ≤ maxNesting) ∧
      readValue? v.toJson = some v ∧ readValue? v.toPrettyJson = some v := by
  intro v
  have hw : v.WellFormed := by
    simp [v, WellFormed, WellFormedItems, WellFormedEntries]
  have hf : v.floatFree = true := rfl
  have hn : v.nesting ≤ maxNesting := by decide
  have hall := readValue?_toJson hw hf hn
  exact ⟨⟨hw, hf, hn⟩, hall.2.1, hall.2.2.1⟩

end LiveNotes
