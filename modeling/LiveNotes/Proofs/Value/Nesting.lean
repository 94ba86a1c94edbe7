import LiveNotes.Json.Value
import LiveNotes.Value.Basic

/-!
How deep a value nests: the most arrays and objects inside one another.

* `Value.nesting`: the nesting of a value, zero for one that is no container;
* `itemsNesting_le_iff`, `entriesNesting_le_iff`: the nesting of parts, said part by part;
* `Json.nesting_of_toValueWithin?`: what is read from JSON text nests within the room for it.
-/

namespace LiveNotes

namespace Value

mutual

/-- The most arrays and objects inside one another. -/
def nesting : Value → Nat
  | .array items => itemsNesting items + 1
  | .object entries => entriesNesting entries + 1
  | _ => 0

/-- The nesting of the deepest of some items. -/
def itemsNesting : List Value → Nat
  | [] => 0
  | v :: vs => max v.nesting (itemsNesting vs)

/-- The nesting of the deepest value of some entries. -/
def entriesNesting : List (String × Value) → Nat
  | [] => 0
  | (_, v) :: es => max v.nesting (entriesNesting es)

end

theorem itemsNesting_le_iff {vs : List Value} {n : Nat} :
    itemsNesting vs ≤ n ↔ ∀ v ∈ vs, v.nesting ≤ n := by
  induction vs with
  | nil => simp [itemsNesting]
  | cons v vs ih => rw [itemsNesting, Nat.max_le, ih, List.forall_mem_cons]

theorem entriesNesting_le_iff {es : List (String × Value)} {n : Nat} :
    entriesNesting es ≤ n ↔ ∀ e ∈ es, e.2.nesting ≤ n := by
  induction es with
  | nil => simp [entriesNesting]
  | cons e es ih => rw [entriesNesting, Nat.max_le, ih, List.forall_mem_cons]

/-- An item nests less deep than its array. -/
theorem nesting_lt_of_mem {v : Value} {vs : List Value} (h : v ∈ vs) :
    v.nesting < (Value.array vs).nesting :=
  Nat.lt_succ_of_le (itemsNesting_le_iff.1 (Nat.le_refl _) v h)

/-- The value of an entry nests less deep than the object. -/
theorem nesting_lt_of_entry {e : String × Value} {es : List (String × Value)} (h : e ∈ es) :
    e.2.nesting < (Value.object es).nesting :=
  Nat.lt_succ_of_le (entriesNesting_le_iff.1 (Nat.le_refl _) e h)

/-- Some of the items nest no deeper than all of them. -/
theorem nesting_array_le_of_subset {vs ws : List Value} (h : vs ⊆ ws) :
    (Value.array vs).nesting ≤ (Value.array ws).nesting :=
  Nat.succ_le_succ (itemsNesting_le_iff.2 fun v hv => itemsNesting_le_iff.1 (Nat.le_refl _) v (h hv))

theorem nesting_of_isNumber {v : Value} (h : v.isNumber = true) : v.nesting = 0 := by
  cases v <;> cases h <;> rfl

end Value

open Value

namespace Json

mutual

/-- A tree that is read with some room gives a value that nests no deeper. -/
theorem nesting_of_toValueWithin? (room : Nat) : ∀ (n : Node) {v : Value},
    n.toValueWithin? room = some v → v.nesting ≤ room
  | .null, _, h | .boolean _, _, h | .text _, _, h => by
    cases h
    exact Nat.zero_le _
  | .brokenText, _, h | .brokenObject, _, h => by cases h
  | .number n, _, h => by
    obtain ⟨x, -, rfl⟩ := Option.map_eq_some_iff.1 h
    have number : x.toValue.isNumber = true := by
      unfold Numeric.toValue
      repeat' split
      all_goals rfl
    rw [nesting_of_isNumber number]
    exact Nat.zero_le _
  | .array items, v, h => by
    cases room with
    | zero => cases h
    | succ room =>
      obtain ⟨vs, hvs, rfl⟩ := Option.map_eq_some_iff.1 h
      exact Nat.succ_le_succ (itemsNesting_le_iff.2 (itemValues?_nesting room items [] (by simp) hvs))
  | .object members, v, h => by
    cases room with
    | zero => cases h
    | succ room =>
      obtain ⟨pairs, hpairs, rfl⟩ := Option.map_eq_some_iff.1 h
      have := memberValues?_nesting room members [] (by simp) hpairs
      exact Nat.succ_le_succ (entriesNesting_le_iff.2 fun e he => this e (Entries.mem_of_mem_ofList he))

theorem itemValues?_nesting (room : Nat) : ∀ (ns : List Node) (done : List Value) {vs : List Value},
    (∀ v ∈ done, v.nesting ≤ room) → itemValues? room done ns = some vs → ∀ v ∈ vs, v.nesting ≤ room
  | [], done, vs, hd, h => by
    cases h
    exact fun v hv => hd v (List.mem_reverse.1 hv)
  | n :: ns, done, vs, hd, h => by
    rw [itemValues?] at h
    split at h
    · next v hv =>
      exact itemValues?_nesting room ns (v :: done)
        (List.forall_mem_cons.2 ⟨nesting_of_toValueWithin? room n hv, hd⟩) h
    · cases h

theorem memberValues?_nesting (room : Nat) : ∀ (ms : List (String × Node))
    (done : List (String × Value)) {pairs : List (String × Value)},
    (∀ e ∈ done, e.2.nesting ≤ room) → memberValues? room done ms = some pairs →
    ∀ e ∈ pairs, e.2.nesting ≤ room
  | [], done, pairs, hd, h => by
    cases h
    exact fun e he => hd e (List.mem_reverse.1 he)
  | (k, n) :: ms, done, pairs, hd, h => by
    rw [memberValues?] at h
    split at h
    · next v hv =>
      exact memberValues?_nesting room ms ((k, v) :: done)
        (List.forall_mem_cons.2 ⟨nesting_of_toValueWithin? room n hv, hd⟩) h
    · cases h

end

end Json

end LiveNotes
