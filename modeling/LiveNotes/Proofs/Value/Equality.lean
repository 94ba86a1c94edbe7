import Mathlib.Data.List.Forall2
import Mathlib.Data.List.Perm.Subperm
import LiveNotes.Value.Basic
import LiveNotes.Proofs.Number.Equality

/-!
What it means for two values to be equal: scalars are the same, with doubles compared as numbers,
arrays are equal item by item, and objects have the same names, in whatever order, with equal values.
The comparison that runs counts the entries of two objects and looks those of the one up in the other.

* `Value.Same`: equality of values;
* `Same.symm`, `Same.trans`: it is symmetric and transitive; it is not reflexive, for the sake of NaN;
* `beq_iff_same`, `sameProperties_iff`: the comparison decides it.
-/

namespace LiveNotes

open Number

/-- Equality of values. -/
inductive Value.Same : Value → Value → Prop where
  | null : Same .null .null
  | boolean (b : Bool) : Same (.boolean b) (.boolean b)
  | integer (n : Int64) : Same (.integer n) (.integer n)
  | float {x y : Float} (h : (x == y) = true) : Same (.float x) (.float y)
  | string (s : String) : Same (.string s) (.string s)
  | array {as bs : List Value} (h : List.Forall₂ Same as bs) : Same (.array as) (.array bs)
  | object {as bs : Entries Value} (names : ∀ name, as.get? name = none ↔ bs.get? name = none)
    (values : ∀ name a b, as.get? name = some a → bs.get? name = some b → Same a b) :
    Same (.object as) (.object bs)

namespace Value

theorem Same.symm {v w : Value} (h : Same v w) : Same w v := by
  induction v using induction_parts generalizing w with
  | scalar v hv =>
    cases h with
    | float h => exact .float (Double.beq_symm h)
    | array h => cases hv
    | object _ _ => cases hv
    | _ => constructor
  | array as ih =>
    cases h with
    | array h =>
      refine .array ?_
      induction h with
      | nil => exact .nil
      | cons hab _ tail =>
        exact .cons (ih _ List.mem_cons_self hab) (tail fun v hv => ih v (List.mem_cons_of_mem _ hv))
  | object as ih =>
    cases h with
    | object names values =>
      refine .object (fun name => (names name).symm) fun name b a hb ha => ?_
      exact ih _ (Entries.mem_of_get? ha) (values name a b ha hb)

theorem Same.trans {u v w : Value} (huv : Same u v) (hvw : Same v w) : Same u w := by
  induction u using induction_parts generalizing v w with
  | scalar u hu =>
    cases huv with
    | float hxy =>
      cases hvw with
      | float hyz => exact .float (Double.beq_trans hxy hyz)
    | array h => cases hu
    | object _ _ => cases hu
    | _ => exact hvw
  | array as ih =>
    cases huv with
    | array hab =>
      cases hvw with
      | @array _ cs hbc =>
        refine .array ?_
        induction hab generalizing cs with
        | nil => exact hbc
        | cons h _ tail =>
          cases hbc with
          | cons h' hbc =>
            refine .cons (ih _ List.mem_cons_self h h') (tail (fun v hv => ?_) hbc)
            exact ih v (List.mem_cons_of_mem _ hv)
  | object as ih =>
    cases huv with
    | @object _ bs hn hv =>
      cases hvw with
      | object hn' hv' =>
        refine .object (fun name => (hn name).trans (hn' name)) fun name a c ha hc => ?_
        cases hb : bs.get? name with
        | none =>
          rw [(hn name).2 hb] at ha
          cases ha
        | some b => exact ih _ (Entries.mem_of_get? ha) (hv name a b ha hb) (hv' name b c hb hc)

/-! ### The comparison -/

theorem beqItems_iff (as bs : List Value) :
    beqItems as bs = true ↔ List.Forall₂ (fun a b => beq a b = true) as bs := by
  induction as generalizing bs with
  | nil => cases bs <;> simp [beqItems]
  | cons a as ih => cases bs <;> simp [beqItems, ih]

theorem beqEntries_iff (as bs : Entries Value) : beqEntries as bs = true ↔
    ∀ e ∈ as, ∃ b, bs.get? e.1 = some b ∧ beq e.2 b = true := by
  induction as with
  | nil => simp [beqEntries]
  | cons e as ih =>
    obtain ⟨k, a⟩ := e
    rw [beqEntries, Bool.and_eq_true, ih, List.forall_mem_cons]
    cases Entries.get? bs k <;> simp

/-- Two dictionaries of one length have the same names if the names of the one are among those of the
other. -/
theorem get?_eq_none_iff_of_subset {as bs : Entries Value} (ha : as.keys.Nodup)
    (hl : as.length = bs.length) (hs : as.keys ⊆ bs.keys) (name : String) :
    as.get? name = none ↔ bs.get? name = none := by
  have hperm : as.keys.Perm bs.keys :=
    (List.subperm_of_subset ha hs).perm_of_length_le (by simp [Entries.keys, hl])
  rw [← Option.not_isSome_iff_eq_none, ← Option.not_isSome_iff_eq_none, Entries.isSome_get?_iff,
    Entries.isSome_get?_iff, hperm.mem_iff]

/-- The comparison of two objects, with what it does on their values still open. -/
theorem beqObject_iff {as bs : Entries Value} (ha : as.keys.Nodup) (hb : bs.keys.Nodup) :
    (as.length == bs.length && beqEntries as bs) = true ↔
      (∀ name, as.get? name = none ↔ bs.get? name = none) ∧
        ∀ name a b, as.get? name = some a → bs.get? name = some b → beq a b = true := by
  rw [Bool.and_eq_true, beq_iff_eq, beqEntries_iff]
  constructor
  · rintro ⟨hl, h⟩
    have hs : as.keys ⊆ bs.keys := by
      intro name hn
      obtain ⟨e, he, rfl⟩ := List.mem_map.1 hn
      obtain ⟨b, hb, -⟩ := h e he
      exact Entries.isSome_get?_iff.1 (Option.isSome_of_eq_some hb)
    refine ⟨get?_eq_none_iff_of_subset ha hl hs, fun name a b hga hgb => ?_⟩
    obtain ⟨b', hb', h⟩ := h (name, a) (Entries.mem_of_get? hga)
    rw [hgb] at hb'
    cases hb'
    exact h
  · rintro ⟨hn, hv⟩
    have hmem (name : String) : name ∈ as.keys ↔ name ∈ bs.keys := by
      rw [← Entries.isSome_get?_iff, ← Entries.isSome_get?_iff, Option.isSome_iff_ne_none,
        Option.isSome_iff_ne_none]
      exact not_congr (hn name)
    have hperm : as.keys.Perm bs.keys := (List.perm_ext_iff_of_nodup ha hb).2 hmem
    refine ⟨by simpa [Entries.keys] using hperm.length_eq, fun e he => ?_⟩
    have hga : as.get? e.1 = some e.2 := (Entries.get?_eq_some_iff ha).2 he
    cases hgb : bs.get? e.1 with
    | none =>
      rw [(hn e.1).2 hgb] at hga
      cases hga
    | some b => exact ⟨b, rfl, hv _ _ _ hga hgb⟩

/-- The comparison of two values in which no object has a name twice. -/
theorem beq_iff_same {v w : Value} (hv : v.WellFormed) (hw : w.WellFormed) :
    beq v w = true ↔ Same v w := by
  induction v using induction_parts generalizing w with
  | scalar v hs =>
    refine ⟨fun h => ?_, fun h => ?_⟩
    · unfold beq at h
      split at h
      · exact .null
      · cases beq_iff_eq.1 h
        exact .boolean _
      · cases beq_iff_eq.1 h
        exact .integer _
      · exact .float h
      · cases beq_iff_eq.1 h
        exact .string _
      · cases hs
      · cases hs
      · cases h
    · cases h with
      | null => rfl
      | float h => exact h
      | array h => cases hs
      | object _ _ => cases hs
      | _ => exact beq_self_eq_true _
  | array as ih =>
    have ha := (wellFormedItems_iff as).1 hv
    cases w with
    | array bs =>
      have hb := (wellFormedItems_iff bs).1 hw
      have hpair {a b : Value} (hm : (a, b) ∈ as.zip bs) : beq a b = true ↔ Same a b :=
        have ⟨hma, hmb⟩ := List.of_mem_zip hm
        ih a hma (ha a hma) (hb b hmb)
      rw [beq, beqItems_iff, List.forall₂_iff_zip]
      constructor
      · rintro ⟨hl, h⟩
        exact .array (List.forall₂_iff_zip.2 ⟨hl, fun hm => (hpair hm).1 (h hm)⟩)
      · rintro ⟨⟩
        next h =>
          have ⟨hl, h⟩ := List.forall₂_iff_zip.1 h
          exact ⟨hl, fun hm => (hpair hm).2 (h hm)⟩
    | _ => exact ⟨nofun, nofun⟩
  | object as ih =>
    have ⟨hna, hva⟩ := hv
    rw [wellFormedEntries_iff] at hva
    cases w with
    | object bs =>
      have ⟨hnb, hvb⟩ := hw
      rw [wellFormedEntries_iff] at hvb
      have hpair {name : String} {a b : Value} (hga : Entries.get? as name = some a)
          (hgb : Entries.get? bs name = some b) : beq a b = true ↔ Same a b :=
        have hma := Entries.mem_of_get? hga
        have hmb := Entries.mem_of_get? hgb
        ih _ hma (hva _ hma) (hvb _ hmb)
      rw [beq, beqObject_iff hna hnb]
      constructor
      · rintro ⟨names, values⟩
        exact .object names fun name a b hga hgb => (hpair hga hgb).1 (values name a b hga hgb)
      · rintro ⟨⟩
        next names values =>
          exact ⟨names, fun name a b hga hgb => (hpair hga hgb).2 (values name a b hga hgb)⟩
    | _ => exact ⟨nofun, nofun⟩

/-- The comparison of properties is that of objects. -/
theorem sameProperties_iff {p q : Properties} (hp : (Value.object p).WellFormed)
    (hq : (Value.object q).WellFormed) :
    sameProperties p q = true ↔ Same (.object p) (.object q) :=
  beq_iff_same hp hq

end Value

end LiveNotes
