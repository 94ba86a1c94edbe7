import Mathlib.Data.List.Infix
import LiveNotes.Proofs.Value.Arithmetic
import LiveNotes.Query.Eval

/-!
The sum of references. One look at all the values decides between adding them and joining their texts:
they are added if every reference has a value and every value is a number.

* `added_iff_allNumbers`: what that look finds;
* `exists_total`: among numbers no addition fails, so that none of them is left out;
* `PartialSumsFit`, `exists_exact_sum`: whole numbers whose partial sums fit are added exactly;
* `value?_sum`: the value of a query.
-/

namespace LiveNotes

open Number

/-! ### Numbers alone, or not -/

/-- Nothing but a number has the word for numbers. -/
theorem elim_word_eq_number_iff {v : Option Value} :
    (v.elim "undefined" fun v => v.kind.word) = Kind.number.word ↔
      ∃ w, v = some w ∧ w.isNumber = true := by
  cases v with
  | none => simp [Kind.word]
  | some w => cases w <;> simp [Value.kind, Kind.word, Value.isNumber]

/-- The common kind is that of numbers if all values are there and are numbers. -/
theorem commonKind_eq_number_iff {v : Option Value} {values : List (Option Value)} :
    Value.commonKind (v :: values) = Kind.number.word ↔
      ∀ w ∈ v :: values, ∃ x, w = some x ∧ x.isNumber = true := by
  simp only [← elim_word_eq_number_iff, List.forall_mem_cons]
  unfold Value.commonKind
  dsimp only
  split
  · rename_i hall
    rw [List.all_eq_true] at hall
    constructor
    · intro hv
      exact ⟨hv, fun w hw => (beq_iff_eq.1 (hall w hw)).trans hv⟩
    · exact And.left
  · rename_i hall
    refine iff_of_false (by simp [Kind.word]) fun ⟨hv, hrest⟩ => hall ?_
    rw [List.all_eq_true]
    exact fun w hw => beq_iff_eq.2 ((hrest w hw).trans hv.symm)

/-- Whether references are added: each has a value, and the value is a number. -/
def AllNumbers (context : Context) (references : List String) : Prop :=
  ∀ r ∈ references, ∃ v, resolve? context r = some v ∧ v.isNumber = true

section Modes

variable {context : Context} {references : List String}

theorem added_iff_allNumbers : ((references.map (resolve? context)).isEmpty ||
    Value.commonKind (references.map (resolve? context)) == Kind.number.word) = true ↔
      AllNumbers context references := by
  cases references with
  | nil => simp [AllNumbers]
  | cons r rest =>
    rw [Bool.or_eq_true, beq_iff_eq, List.map_cons, commonKind_eq_number_iff, ← List.map_cons,
      List.forall_mem_map]
    simp [AllNumbers]

theorem sumValue_of_allNumbers (h : AllNumbers context references) : sumValue context references =
    (references.filterMap (resolve? context)).foldl (fun sum v => (Value.arith? .add sum v).getD sum)
      (.integer 0) := by
  have hvalues : (references.map (resolve? context)).filterMap id =
      references.filterMap (resolve? context) := List.filterMap_map
  unfold sumValue
  dsimp only
  rw [hvalues, if_pos (added_iff_allNumbers.2 h)]

theorem sumValue_of_not_allNumbers (h : ¬ AllNumbers context references) :
    sumValue context references =
      .string (.join (references.map fun r => (resolve? context r).elim "" Value.inline)) := by
  have hjoin : String.join (references.map fun r => (resolve? context r).elim "" Value.inline) =
      (references.map (resolve? context)).foldl (fun s v => s ++ v.elim "" Value.inline) "" := by
    unfold String.join
    rw [List.foldl_map, List.foldl_map]
  unfold sumValue
  dsimp only
  rw [if_neg (mt added_iff_allNumbers.1 h), hjoin]

end Modes

/-! ### Adding -/

/-- Numbers have a sum: no addition fails, so that no number is left out. -/
theorem exists_total {values : List Value} (hvalues : ∀ v ∈ values, v.isNumber = true) :
    ∀ start : Value, start.isNumber = true → ∃ total, values.foldlM (Value.arith? .add) start = some total ∧
      values.foldl (fun sum v => (Value.arith? .add sum v).getD sum) start = total := by
  induction values with
  | nil => exact fun start _ => ⟨start, rfl, rfl⟩
  | cons v values ih =>
    intro start hstart
    obtain ⟨hv, hvalues⟩ := List.forall_mem_cons.1 hvalues
    obtain ⟨next, hnext, hnumber⟩ := Value.exists_arith? (show Arith.add.divides = false from rfl) hstart hv
    obtain ⟨total, htotal, hfold⟩ := ih hvalues next hnumber
    refine ⟨total, ?_, ?_⟩
    · rw [List.foldlM_cons, hnext]
      exact htotal
    · rw [List.foldl_cons, hnext]
      exact hfold

/-- From left to right, every sum of whole numbers is of 64 bits. -/
def PartialSumsFit (ns : List Int64) : Prop :=
  ∀ s ∈ ns.inits, minInteger ≤ (s.map Int64.toInt).sum ∧ (s.map Int64.toInt).sum ≤ maxInteger

instance (ns : List Int64) : Decidable (PartialSumsFit ns) :=
  inferInstanceAs (Decidable (∀ s ∈ ns.inits, _))

/-- Whole numbers are added exactly to one that they begin with. -/
theorem exists_exact_sum_from {ns : List Int64} : ∀ start : Int64,
    (∀ s ∈ ns.inits, minInteger ≤ start.toInt + (s.map Int64.toInt).sum ∧
      start.toInt + (s.map Int64.toInt).sum ≤ maxInteger) →
    ∃ n : Int64, n.toInt = start.toInt + (ns.map Int64.toInt).sum ∧
      (ns.map Value.integer).foldlM (Value.arith? .add) (.integer start) = some (.integer n) := by
  induction ns with
  | nil => exact fun start _ => ⟨start, by simp, rfl⟩
  | cons n ns ih =>
    intro start hfit
    rw [List.inits_cons, List.forall_mem_cons, List.forall_mem_map] at hfit
    have hnext : (Int64.ofInt (start.toInt + n.toInt)).toInt = start.toInt + n.toInt := by
      have := hfit.2 [] ((List.mem_inits _ _).2 List.nil_prefix)
      exact toInt_ofInt_of_fits (by simpa using this)
    have hadd : Value.arith? .add (.integer start) (.integer n) =
        some (.integer (.ofInt (start.toInt + n.toInt))) := Value.arith?_of_isExact hnext
    obtain ⟨m, hm, hfold⟩ := ih (.ofInt (start.toInt + n.toInt)) fun s hs => by
      rw [hnext, Int.add_assoc]
      exact hfit.2 s hs
    refine ⟨m, ?_, ?_⟩
    · rw [hm, hnext, List.map_cons, List.sum_cons, Int.add_assoc]
    · rw [List.map_cons, List.foldlM_cons, hadd]
      exact hfold

theorem exists_exact_sum {ns : List Int64} (h : PartialSumsFit ns) :
    ∃ n : Int64, n.toInt = (ns.map Int64.toInt).sum ∧
      (ns.map Value.integer).foldlM (Value.arith? .add) (.integer 0) = some (.integer n) := by
  have hzero : (0 : Int64).toInt = 0 := rfl
  obtain ⟨n, hn, hfold⟩ := exists_exact_sum_from 0 fun s hs => by
    rw [hzero, Int.zero_add]
    exact h s hs
  rw [hzero, Int.zero_add] at hn
  exact ⟨n, hn, hfold⟩

/-! ### The query -/

section Values

variable {context : Context} {references : List String} {values : List Value}
  (h : references.map (resolve? context) = values.map some)
include h

theorem allNumbers_of_values (hvalues : ∀ v ∈ values, v.isNumber = true) :
    AllNumbers context references := by
  intro r hr
  have hmem : resolve? context r ∈ values.map some := h ▸ List.mem_map_of_mem hr
  obtain ⟨v, hv, heq⟩ := List.mem_map.1 hmem
  exact ⟨v, heq.symm, hvalues v hv⟩

theorem filterMap_resolve : references.filterMap (resolve? context) = values := by
  have : references.filterMap (resolve? context) = (references.map (resolve? context)).filterMap id := by
    rw [List.filterMap_map]
    rfl
  rw [this, h, List.filterMap_map]
  exact List.filterMap_some

/-- The total of numbers is the value of the query. -/
theorem value?_sum_of_total (hvalues : ∀ v ∈ values, v.isNumber = true) {total : Value}
    (htotal : values.foldlM (Value.arith? .add) (.integer 0) = some total) :
    Query.value? ⟨.sum, references⟩ context = some total := by
  obtain ⟨total', htotal', hfold⟩ := exists_total hvalues (.integer 0) rfl
  rw [htotal, Option.some_inj] at htotal'
  change some (sumValue context references) = _
  rw [sumValue_of_allNumbers (allNumbers_of_values h hvalues), filterMap_resolve h, hfold, htotal']

end Values

/-- A note with whole numbers up to the greatest one, a double and a text. -/
def sumContext (rate : Float) : Context :=
  ⟨"n.md", [("n.md", .document [("x", .integer 9223372036854775807), ("y", .integer (-1)),
    ("z", .integer 1), ("rate", .float rate), ("label", .string "rent")])], [], 0⟩

end LiveNotes
