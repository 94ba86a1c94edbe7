import LiveNotes.Proofs.Script.Expressions

/-!
The members of `Object`: keys, values and entries of any value. Keys and values of all values go
together; entries are pairs of them for all values but arrays, which have keys and values and no entries.

* `length_objectKeys`, `objectEntries_of_not_array`, `objectEntries_array`: the lists of one value;
* `Paired`: entries that pair keys with values; `paired_iff`: when they do;
* `object_entries_paired`: the same of the calls in a script.
-/

namespace LiveNotes.Script

/-- A key and the value that belongs to it. -/
def entryValue (key v : Value) : Value := .array [key, v]

/-- Every key is written before its value, all of them in order. -/
def Paired (keys values entries : List Value) : Prop :=
  entries.length = keys.length ∧
    ∀ (i : Nat) (key v : Value), keys[i]? = some key → values[i]? = some v →
      entries[i]? = some (entryValue key v)

theorem paired_zipWith {keys values : List Value} (h : keys.length = values.length) :
    Paired keys values (List.zipWith entryValue keys values) := by
  refine ⟨by rw [List.length_zipWith, h, Nat.min_self], fun i key v hkey hv => ?_⟩
  rw [List.getElem?_zipWith, hkey, hv]

/-- There are as many keys as values. -/
theorem length_objectKeys (v : Value) : (objectKeys v).length = (objectValues v).length := by
  cases v with
  | object entries => simp [objectKeys, objectValues]
  | array items => simp [objectKeys, objectValues]
  | _ => rfl

/-- The entries of what is no array are its keys with their values. -/
theorem objectEntries_of_not_array {v : Value} (h : ∀ items, v ≠ .array items) :
    objectEntries v = List.zipWith entryValue (objectKeys v) (objectValues v) := by
  cases v with
  | object entries =>
    unfold objectEntries objectKeys objectValues
    rw [List.zipWith_map, List.zipWith_self]
    rfl
  | array items => exact absurd rfl (h items)
  | _ => rfl

theorem objectEntries_array (items : List Value) : objectEntries (.array items) = [] := rfl

/-- Entries pair keys with values, except those of an array with items. -/
theorem paired_iff (v : Value) : Paired (objectKeys v) (objectValues v) (objectEntries v) ↔
    ∀ items, v = .array items → items = [] := by
  by_cases h : ∃ items, v = .array items
  · obtain ⟨items, rfl⟩ := h
    constructor
    · rintro ⟨hlength, -⟩ items' hitems
      cases hitems
      rw [objectEntries_array, length_objectKeys] at hlength
      exact List.length_eq_zero_iff.1 hlength.symm
    · intro hnone
      rw [hnone items rfl]
      exact ⟨rfl, nofun⟩
  · have hother : ∀ items, v ≠ .array items := fun items hv => h ⟨items, hv⟩
    rw [objectEntries_of_not_array hother]
    exact iff_of_true (paired_zipWith (length_objectKeys v)) fun items hv => absurd hv (hother items)

section Calls

variable {frames : List Frame} {x : Expr} {v : Value} (hx : HasValue frames x v)
  (hobject : Unbound frames "Object")
include hx hobject

theorem hasValue_objectKeys : HasValue frames (.methodCall (.identifier "Object") "keys" [x])
    (.array (objectKeys v)) :=
  .globalMethod (g := .object) (.cons hx .nil) hobject rfl

theorem hasValue_objectValues : HasValue frames (.methodCall (.identifier "Object") "values" [x])
    (.array (objectValues v)) :=
  .globalMethod (g := .object) (.cons hx .nil) hobject rfl

theorem hasValue_objectEntries : HasValue frames (.methodCall (.identifier "Object") "entries" [x])
    (.array (objectEntries v)) :=
  .globalMethod (g := .object) (.cons hx .nil) hobject rfl

/-- Of every value a script gets as many keys as values, and its entries pair them exactly if it is no
array with items. -/
theorem object_entries_paired : ∃ keys values entries,
    HasValue frames (.methodCall (.identifier "Object") "keys" [x]) (.array keys) ∧
    HasValue frames (.methodCall (.identifier "Object") "values" [x]) (.array values) ∧
    HasValue frames (.methodCall (.identifier "Object") "entries" [x]) (.array entries) ∧
    keys.length = values.length ∧
    (Paired keys values entries ↔ ∀ items, v = .array items → items = []) :=
  ⟨_, _, _, hasValue_objectKeys hx hobject, hasValue_objectValues hx hobject,
    hasValue_objectEntries hx hobject, length_objectKeys v, paired_iff v⟩

end Calls

/-- A variable with an object of two names. -/
def accountFrames : List Frame :=
  [[("account", .object [("name", .string "a"), ("total", .array [.integer 3, .null])])]]

/-- The entries of an object with an array in it. -/
theorem object_entries_paired_account : ∃ keys values entries,
    HasValue accountFrames (.methodCall (.identifier "Object") "keys" [.identifier "account"]) (.array keys) ∧
    HasValue accountFrames (.methodCall (.identifier "Object") "values" [.identifier "account"])
      (.array values) ∧
    HasValue accountFrames (.methodCall (.identifier "Object") "entries" [.identifier "account"])
      (.array entries) ∧
    Paired keys values entries := by
  have haccount : HasValue accountFrames (.identifier "account")
      (.object [("name", .string "a"), ("total", .array [.integer 3, .null])]) := hasValue_iff.2 rfl
  obtain ⟨keys, values, entries, hkeys, hvalues, hentries, -, hpaired⟩ :=
    object_entries_paired haccount (by rfl)
  exact ⟨keys, values, entries, hkeys, hvalues, hentries, hpaired.2 nofun⟩

/-- An array of one item has a key and a value and no entry. -/
theorem object_entries_array :
    HasValue [] (.methodCall (.identifier "Object") "keys" [.array [.integer 1]]) (.array [.string "0"]) ∧
    HasValue [] (.methodCall (.identifier "Object") "values" [.array [.integer 1]]) (.array [.integer 1]) ∧
    HasValue [] (.methodCall (.identifier "Object") "entries" [.array [.integer 1]]) (.array []) := by
  have hitems : HasValue [] (.array [.integer 1]) (.array [.integer 1]) := .array (.cons (hasValue_integer 1) .nil)
  exact ⟨hasValue_objectKeys hitems rfl, hasValue_objectValues hitems rfl, hasValue_objectEntries hitems rfl⟩

end LiveNotes.Script
