import LiveNotes.Proofs.Number.Order
import LiveNotes.Proofs.Script.Expressions
import LiveNotes.Proofs.Value.Equality

/-!
The comparisons of any two values agree with one another: with its operands the other way round a
comparison becomes its converse, whatever conversions the values go through, and equality without
conversion implies equality with it.

* `Value.strictEq_comm`, `Value.looseEq_comm`, `Value.order?_swap`: two values the other way round;
* `Value.looseEq_of_strictEq`: the two equalities;
* `Comparison.converse`, `Comparison.holds_converse`: the comparison that holds the other way round;
* `comparison_coherent`: all of this, of values and of what scripts give.
-/

namespace LiveNotes

open Number

namespace Value

variable {a b : Value}

theorem beq_comm_of_wellFormed (ha : a.WellFormed) (hb : b.WellFormed) : (a == b) = (b == a) :=
  Bool.eq_iff_iff.2 ⟨fun h => (beq_iff_same hb ha).2 ((beq_iff_same ha hb).1 h).symm,
    fun h => (beq_iff_same ha hb).2 ((beq_iff_same hb ha).1 h).symm⟩

theorem strictEq_comm (ha : a.WellFormed) (hb : b.WellFormed) : a.strictEq b = b.strictEq a := by
  unfold strictEq
  cases a.asFloat? with
  | none => cases b.asFloat? <;> exact beq_comm_of_wellFormed ha hb
  | some x =>
    cases b.asFloat? with
    | none => exact beq_comm_of_wellFormed ha hb
    | some y => exact Double.beq_comm x y

/-- Whichever of the rules two values come under, they come under its mirror image the other way round. -/
theorem looseEq_comm (ha : a.WellFormed) (hb : b.WellFormed) : a.looseEq b = b.looseEq a := by
  have hnumbers : (a.toNumber == b.toNumber) = (b.toNumber == a.toNumber) := Double.beq_comm _ _
  have hstrict := strictEq_comm ha hb
  cases a with
  | null => cases b <;> rfl
  | integer _ | float _ =>
    cases b with
    | null => rfl
    | _ => exact hnumbers
  | boolean p =>
    cases b with
    | null => rfl
    | boolean q => exact Bool.beq_comm
    | _ => exact hnumbers
  | string s =>
    cases b with
    | null => rfl
    | string t => exact BEq.comm
    | array items => rfl
    | object entries => exact hstrict
    | _ => exact hnumbers
  | array items =>
    cases b with
    | null => rfl
    | string t => rfl
    | array items' => exact hstrict
    | object entries => exact hstrict
    | _ => exact hnumbers
  | object entries =>
    cases b with
    | null => rfl
    | string t => exact hstrict
    | array items => exact hstrict
    | object entries' => exact hstrict
    | _ => exact hnumbers

/-- Values of different kinds are not equal without conversion, and those of one kind are compared alike. -/
theorem looseEq_of_strictEq (h : a.strictEq b = true) : a.looseEq b = true := by
  cases a with
  | null =>
    cases b with
    | null => rfl
    | _ => cases h
  | integer _ | float _ =>
    cases b with
    | integer _ | float _ => exact h
    | _ => cases h
  | boolean _ =>
    cases b with
    | boolean _ => exact h
    | _ => cases h
  | string _ =>
    cases b with
    | string _ => exact h
    | _ => cases h
  | array _ =>
    cases b with
    | array _ => exact h
    | _ => cases h
  | object _ =>
    cases b with
    | object _ => exact h
    | _ => cases h

/-- Two texts are in one order or the other, and two values as numbers also may be in none. -/
theorem order?_swap (a b : Value) : b.order? a = (a.order? b).map Ordering.swap := by
  have hnumbers : Double.order? b.toNumber a.toNumber =
    (Double.order? a.toNumber b.toNumber).map Ordering.swap := Number.order?_swap _ _
  cases a with
  | string s =>
    cases b with
    | string t => exact congrArg some Std.OrientedCmp.eq_swap
    | _ => exact hnumbers
  | _ => cases b <;> exact hnumbers

end Value

namespace Script

/-- The comparison that says the same of two values the other way round. -/
def Comparison.converse : Comparison → Comparison
  | .lessThan => .greaterThan
  | .greaterThan => .lessThan
  | .lessEqual => .greaterEqual
  | .greaterEqual => .lessEqual
  | op => op

variable {a b : Value}

theorem Comparison.holds_converse (op : Comparison) (ha : a.WellFormed) (hb : b.WellFormed) :
    op.converse.holds b a = op.holds a b := by
  have hequal := Value.looseEq_comm ha hb
  have hstrict := Value.strictEq_comm ha hb
  have horder := Value.order?_swap a b
  have hflip (o : Option Ordering) : (o.map Ordering.swap == some .lt) = (o == some .gt) ∧
      (o.map Ordering.swap == some .gt) = (o == some .lt) ∧
      (o.map Ordering.swap == some .eq) = (o == some .eq) := by
    rcases o with _ | _ | _ | _ <;> decide
  obtain ⟨hlt, hgt, heq⟩ := hflip (a.order? b)
  cases op with
  | equal => exact hequal.symm
  | notEqual => exact congrArg (!·) hequal.symm
  | strictEqual => exact hstrict.symm
  | strictNotEqual => exact congrArg (!·) hstrict.symm
  | lessThan => rw [converse, holds, holds, horder, hgt]
  | greaterThan => rw [converse, holds, holds, horder, hlt]
  | lessEqual => rw [converse, holds, holds, horder, hgt, heq]
  | greaterEqual => rw [converse, holds, holds, horder, hlt, heq]

/-- **The comparisons agree.** A comparison of two values is its converse the other way round, `===`
implies `==`, and `!=` and `!==` are the negations of these. Scripts get these answers from any
expressions that have the two values, in either order. Objects have no key twice, as maps do not. -/
theorem comparison_coherent (ha : a.WellFormed) (hb : b.WellFormed) :
    (∀ op : Comparison, op.converse.holds b a = op.holds a b) ∧
    (Comparison.strictEqual.holds a b = true → Comparison.equal.holds a b = true) ∧
    Comparison.notEqual.holds a b = !Comparison.equal.holds a b ∧
    Comparison.strictNotEqual.holds a b = !Comparison.strictEqual.holds a b ∧
    ∀ (op : Comparison) (frames : List Frame) (x y : Expr), HasValue frames x a → HasValue frames y b →
      HasValue frames (.binary (.comparison op) x y) (.boolean (op.holds a b)) ∧
      HasValue frames (.binary (.comparison op.converse) y x) (.boolean (op.holds a b)) := by
  refine ⟨fun op => op.holds_converse ha hb, Value.looseEq_of_strictEq, rfl, rfl, ?_⟩
  intro op frames x y hx hy
  have hconverse := HasValue.comparison op.converse hy hx
  rw [op.holds_converse ha hb] at hconverse
  exact ⟨.comparison op hx hy, hconverse⟩

/-- An array beside a text is taken as a text, on either side. -/
theorem comparison_coherent_array_text :
    HasValue [] (.binary (.comparison .equal) (.array [.string "é"]) (.string "é")) (.boolean true) ∧
    HasValue [] (.binary (.comparison .equal) (.string "é") (.array [.string "é"])) (.boolean true) ∧
    HasValue [] (.binary (.comparison .strictEqual) (.string "é") (.array [.string "é"])) (.boolean false) := by
  have hx : HasValue [] (.array [.string "é"]) (.array [.string "é"]) := .array (.cons (hasValue_string "é") .nil)
  have hy : HasValue [] (.string "é") (.string "é") := hasValue_string "é"
  have ha : (Value.array [.string "é"]).WellFormed := ⟨trivial, trivial⟩
  have hb : (Value.string "é").WellFormed := trivial
  obtain ⟨-, -, -, -, h⟩ := comparison_coherent ha hb
  have hequal : Comparison.equal.holds (.array [.string "é"]) (.string "é") = true := by decide
  have hstrict : Comparison.strictEqual.holds (.array [.string "é"]) (.string "é") = false := rfl
  have hboth := h .equal [] _ _ hx hy
  have hneither := h .strictEqual [] _ _ hx hy
  rw [hequal] at hboth
  rw [hstrict] at hneither
  exact ⟨hboth.1, hboth.2, hneither.2⟩

end Script

end LiveNotes
