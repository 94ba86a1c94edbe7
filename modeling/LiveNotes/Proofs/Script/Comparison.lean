import LiveNotes.Proofs.Number.Order
import LiveNotes.Proofs.Script.Expressions

/-!
The comparison of whole numbers in scripts. They are compared as doubles, so of each number 53 bits count:
the order is never turned round, but two different numbers can be the same.

* `Comparison.onIntegers`: what a comparison says of two integers; `holds_integers`: what it gives;
* `Collide`: two different numbers that are one double;
* `comparison_integers`: comparisons and searches are right, unless numbers collide.
-/

namespace LiveNotes

open Number

namespace Script

/-- What a comparison says of two integers. -/
def Comparison.onIntegers : Comparison → Int → Int → Bool
  | .equal, m, n | .strictEqual, m, n => m = n
  | .notEqual, m, n | .strictNotEqual, m, n => m ≠ n
  | .lessThan, m, n => m < n
  | .greaterThan, m, n => n < m
  | .lessEqual, m, n => m ≤ n
  | .greaterEqual, m, n => n ≤ m

/-- It says the same of integers that lie in the same order. -/
theorem Comparison.onIntegers_congr (op : Comparison) {m n m' n' : Int}
    (h : compare m n = compare m' n') : op.onIntegers m n = op.onIntegers m' n' := by
  have hlt : m < n ↔ m' < n' := by rw [← compare_lt_iff_lt, h, compare_lt_iff_lt]
  have heq : m = n ↔ m' = n' := by rw [← compare_eq_iff_eq, h, compare_eq_iff_eq]
  have hgt : n < m ↔ n' < m' := by rw [← compare_gt_iff_gt, h, compare_gt_iff_gt]
  cases op with
  | equal | strictEqual => exact decide_eq_decide.2 heq
  | notEqual | strictNotEqual => exact decide_eq_decide.2 (not_congr heq)
  | lessThan => exact decide_eq_decide.2 hlt
  | greaterThan => exact decide_eq_decide.2 hgt
  | lessEqual => exact decide_eq_decide.2 (by rw [← not_lt, ← not_lt, hgt])
  | greaterEqual => exact decide_eq_decide.2 (by rw [← not_lt, ← not_lt, hlt])

end Script

namespace Value

open Script

theorem strictEq_integers (a b : Int64) : (integer a).strictEq (.integer b) =
    decide (nearestDouble a.toInt = nearestDouble b.toInt) :=
  beq_ofInteger a b

theorem order?_integers (a b : Int64) : (integer a).order? (.integer b) =
    some (compare (nearestDouble a.toInt) (nearestDouble b.toInt)) :=
  order?_ofInteger a b

/-- Two whole numbers compare as the doubles nearest to them. -/
theorem holds_integers (op : Comparison) (a b : Int64) : op.holds (.integer a) (.integer b) =
    op.onIntegers (nearestDouble a.toInt) (nearestDouble b.toInt) := by
  have hloose : (integer a).looseEq (.integer b) =
    decide (nearestDouble a.toInt = nearestDouble b.toInt) := beq_ofInteger a b
  unfold Comparison.holds
  rw [hloose, strictEq_integers, order?_integers]
  generalize nearestDouble a.toInt = m
  generalize nearestDouble b.toInt = n
  unfold Comparison.onIntegers
  rcases lt_trichotomy m n with h | h | h
  · rw [compare_lt_iff_lt.2 h]
    cases op <;> simp <;> omega
  · rw [compare_eq_iff_eq.2 h]
    cases op <;> simp <;> omega
  · rw [compare_gt_iff_gt.2 h]
    cases op <;> simp <;> omega

end Value

namespace Script

/-- Two different numbers that become one double. -/
def Collide (a b : Int64) : Prop := a ≠ b ∧ nearestDouble a.toInt = nearestDouble b.toInt

instance : DecidableRel Collide := fun a b =>
  inferInstanceAs (Decidable (a ≠ b ∧ nearestDouble a.toInt = nearestDouble b.toInt))

section Numbers

variable {a b : Int64} {items : List Int64}

/-- What does not collide keeps its order. -/
theorem compare_nearestDouble (h : ¬ Collide a b) :
    compare (nearestDouble a.toInt) (nearestDouble b.toInt) = compare a.toInt b.toInt := by
  have hne (hab : a.toInt ≠ b.toInt) : nearestDouble a.toInt ≠ nearestDouble b.toInt :=
    fun he => h ⟨fun heq => hab (congrArg _ heq), he⟩
  rcases lt_trichotomy a.toInt b.toInt with hab | hab | hab
  · rw [compare_lt_iff_lt.2 hab, compare_lt_iff_lt]
    exact lt_of_le_of_ne (nearestDouble_mono hab.le) (hne hab.ne)
  · rw [hab, compare_eq_iff_eq.2 rfl, compare_eq_iff_eq.2 rfl]
  · rw [compare_gt_iff_gt.2 hab, compare_gt_iff_gt]
    exact lt_of_le_of_ne (nearestDouble_mono hab.le) (hne hab.ne').symm

/-- Comparisons are right for two numbers that do not collide, and only for these. -/
theorem holds_right_iff : (∀ op : Comparison,
    op.holds (.integer a) (.integer b) = op.onIntegers a.toInt b.toInt) ↔ ¬ Collide a b := by
  constructor
  · rintro h ⟨hne, he⟩
    have hright : decide _ = decide _ := (Value.holds_integers .strictEqual a b).symm.trans (h .strictEqual)
    exact hne (Int64.toInt_inj.1 ((decide_eq_decide.1 hright).1 he))
  · intro h op
    rw [Value.holds_integers]
    exact op.onIntegers_congr (compare_nearestDouble h)

/-- Of "less", "equal" and "greater" one is true of two integers. -/
theorem existsUnique_onIntegers (m n : Int) : ∃! op : Comparison,
    (op = .lessThan ∨ op = .strictEqual ∨ op = .greaterThan) ∧ op.onIntegers m n = true := by
  unfold Comparison.onIntegers
  rcases lt_trichotomy m n with h | h | h
  · refine ⟨.lessThan, ⟨.inl rfl, decide_eq_true h⟩, ?_⟩
    rintro op ⟨rfl | rfl | rfl, hop⟩
    · rfl
    · exact absurd (of_decide_eq_true hop) h.ne
    · exact absurd (of_decide_eq_true hop) h.not_gt
  · refine ⟨.strictEqual, ⟨.inr (.inl rfl), decide_eq_true h⟩, ?_⟩
    rintro op ⟨rfl | rfl | rfl, hop⟩
    · exact absurd h (of_decide_eq_true hop).ne
    · rfl
    · exact absurd h (of_decide_eq_true hop).ne'
  · refine ⟨.greaterThan, ⟨.inr (.inr rfl), decide_eq_true h⟩, ?_⟩
    rintro op ⟨rfl | rfl | rfl, hop⟩
    · exact absurd (of_decide_eq_true hop) h.not_gt
    · exact absurd (of_decide_eq_true hop) h.ne'
    · rfl

/-! ### Searches in arrays -/

/-- A search for a number stops at the first one that is the same double. -/
theorem any_strictEq : (items.map Value.integer).any (fun v => v.strictEq (.integer a)) =
    items.any fun v => nearestDouble v.toInt = nearestDouble a.toInt := by
  rw [List.any_map]
  exact congrArg items.any (funext fun v => Value.strictEq_integers v a)

theorem findIdx?_strictEq : (items.map Value.integer).findIdx? (fun v => v.strictEq (.integer a)) =
    items.findIdx? fun v => nearestDouble v.toInt = nearestDouble a.toInt := by
  rw [List.findIdx?_map]
  exact congrArg (List.findIdx? · items) (funext fun v => Value.strictEq_integers v a)

/-- Whether a number is there is found out, unless it is missing and another one collides with it. -/
theorem any_right_iff : items.any (fun v => nearestDouble v.toInt = nearestDouble a.toInt) =
    decide (a ∈ items) ↔ a ∈ items ∨ ∀ v ∈ items, ¬ Collide v a := by
  by_cases ha : a ∈ items
  · have hany : items.any (fun v => nearestDouble v.toInt = nearestDouble a.toInt) = true :=
      List.any_eq_true.2 ⟨a, ha, decide_eq_true rfl⟩
    exact iff_of_true (hany.trans (decide_eq_true ha).symm) (.inl ha)
  · rw [decide_eq_false ha, List.any_eq_false, or_iff_right ha]
    refine forall₂_congr fun v hv => ?_
    have hne : v ≠ a := fun h => ha (h ▸ hv)
    unfold Collide
    rw [decide_eq_true_iff]
    exact not_congr ⟨fun h => ⟨hne, h⟩, fun h => h.2⟩

/-- The place of a number is found, unless one before it collides with it. -/
theorem findIdx?_right_iff : items.findIdx? (fun v => nearestDouble v.toInt = nearestDouble a.toInt) =
    items.findIdx? (· = a) ↔ ∀ v ∈ items.takeWhile (· ≠ a), ¬ Collide v a := by
  induction items with
  | nil => simp
  | cons v vs ih =>
    rw [List.findIdx?_cons, List.findIdx?_cons, List.takeWhile_cons]
    by_cases hv : v = a
    · subst hv
      simp
    · rw [decide_eq_false hv, decide_eq_true hv, if_neg Bool.false_ne_true, if_pos rfl, List.forall_mem_cons]
      by_cases hs : nearestDouble v.toInt = nearestDouble a.toInt
      · rw [decide_eq_true hs, if_pos rfl]
        refine iff_of_false (fun h => ?_) fun h => h.1 ⟨hv, hs⟩
        obtain ⟨i, -, hi⟩ := Option.map_eq_some_iff.1 h.symm
        cases hi
      · rw [decide_eq_false hs, if_neg Bool.false_ne_true, ← ih, and_iff_right fun h => hs h.2]
        exact (Option.map_injective (add_left_injective 1)).eq_iff

/-- Positions in an array of a size that there is have different values. -/
theorem positionValue_inj {i j : Option Nat} (hi : ∀ n ∈ i, n < 2 ^ 63) (hj : ∀ n ∈ j, n < 2 ^ 63) :
    positionValue i = positionValue j ↔ i = j := by
  have hvalue {n : Nat} (hn : n < 2 ^ 63) : (Int64.ofNat n).toInt = n := Int64.toInt_ofNat_of_lt hn
  have hnone {n : Nat} (hn : n < 2 ^ 63) : Int64.ofNat n ≠ -1 := fun h => by
    have hminus : (Int64.ofNat n).toInt = -1 := congrArg Int64.toInt h
    rw [hvalue hn] at hminus
    omega
  refine ⟨fun h => ?_, congrArg _⟩
  cases i with
  | none =>
    cases j with
    | none => rfl
    | some n => exact absurd (Value.integer.inj h).symm (hnone (hj n rfl))
  | some m =>
    cases j with
    | none => exact absurd (Value.integer.inj h) (hnone (hi m rfl))
    | some n =>
      have hmn : (Int64.ofNat m).toInt = (Int64.ofNat n).toInt := congrArg Int64.toInt (Value.integer.inj h)
      rw [hvalue (hi m rfl), hvalue (hj n rfl)] at hmn
      exact congrArg some (Int.ofNat_inj.1 hmn)

end Numbers

/-! ### Expressions -/

section Expressions

variable {frames : List Frame} {x y xs : Expr} {a b : Int64} {items : List Int64}

theorem hasValue_comparison_iff (op : Comparison) (hx : HasValue frames x (.integer a))
    (hy : HasValue frames y (.integer b)) (r : Bool) :
    HasValue frames (.binary (.comparison op) x y) (.boolean r) ↔
      op.onIntegers (nearestDouble a.toInt) (nearestDouble b.toInt) = r := by
  have hvalue := HasValue.comparison op hx hy
  rw [Value.holds_integers] at hvalue
  exact ⟨fun h => Value.boolean.inj (hvalue.unique h), fun h => h ▸ hvalue⟩

theorem hasValue_includes (hxs : HasValue frames xs (.array (items.map .integer)))
    (hx : HasValue frames x (.integer a)) : HasValue frames (.methodCall xs "includes" [x])
      (.boolean (items.any fun v => nearestDouble v.toInt = nearestDouble a.toInt)) :=
  HasValue.arrayMethod (m := .includes) (.cons hx .nil) hxs rfl rfl
    (congrArg (Except.ok <| Value.boolean ·) any_strictEq)

theorem hasValue_indexOf (hxs : HasValue frames xs (.array (items.map .integer)))
    (hx : HasValue frames x (.integer a)) : HasValue frames (.methodCall xs "indexOf" [x])
      (positionValue (items.findIdx? fun v => nearestDouble v.toInt = nearestDouble a.toInt)) :=
  HasValue.arrayMethod (m := .indexOf) (.cons hx .nil) hxs rfl rfl
    (congrArg (Except.ok <| positionValue ·) findIdx?_strictEq)

/-- Of two integers one is less, equal or greater. All comparisons say what they say of integers, and a
search for an integer finds its first place, but for integers that collide. -/
theorem comparison_integers (hx : HasValue frames x (.integer a)) (hy : HasValue frames y (.integer b))
    (hxs : HasValue frames xs (.array (items.map .integer))) :
    (∃! op : Comparison, (op = .lessThan ∨ op = .strictEqual ∨ op = .greaterThan) ∧
      HasValue frames (.binary (.comparison op) x y) (.boolean true)) ∧
    ((∀ op : Comparison, HasValue frames (.binary (.comparison op) x y)
      (.boolean (op.onIntegers a.toInt b.toInt))) ↔ ¬ Collide a b) ∧
    (HasValue frames (.methodCall xs "includes" [x]) (.boolean (decide (a ∈ items))) ↔
      a ∈ items ∨ ∀ v ∈ items, ¬ Collide v a) ∧
    ((∀ v ∈ items.takeWhile (· ≠ a), ¬ Collide v a) →
      HasValue frames (.methodCall xs "indexOf" [x]) (positionValue (items.findIdx? (· = a)))) ∧
    (items.length < 2 ^ 63 →
      HasValue frames (.methodCall xs "indexOf" [x]) (positionValue (items.findIdx? (· = a))) →
      ∀ v ∈ items.takeWhile (· ≠ a), ¬ Collide v a) := by
  refine ⟨?_, ?_, ?_, fun h => ?_, fun hsize h => ?_⟩
  · simp only [hasValue_comparison_iff _ hx hy]
    exact existsUnique_onIntegers _ _
  · simp only [hasValue_comparison_iff _ hx hy, ← Value.holds_integers]
    exact holds_right_iff
  · rw [← any_right_iff]
    have hfound := hasValue_includes hxs hx
    exact ⟨fun h => Value.boolean.inj (hfound.unique h), fun h => h ▸ hfound⟩
  · exact findIdx?_right_iff.2 h ▸ hasValue_indexOf hxs hx
  · have hplace (p : Int64 → Bool) : ∀ n ∈ items.findIdx? p, n < 2 ^ 63 :=
      fun n hn => (List.findIdx?_eq_some_iff_getElem.1 hn).1.trans hsize
    have hsame := (hasValue_indexOf hxs hx).unique h
    exact findIdx?_right_iff.1 ((positionValue_inj (hplace _) (hplace _)).1 hsame)

/-- Behind `2 ^ 53` a number is equal to the next one and found in its place. -/
theorem comparison_integers_beyond :
    (∃! op : Comparison, (op = .lessThan ∨ op = .strictEqual ∨ op = .greaterThan) ∧
      HasValue [] (.binary (.comparison op) (.integer 9007199254740992) (.integer 9007199254740994))
        (.boolean true)) ∧
    (∀ op : Comparison,
      HasValue [] (.binary (.comparison op) (.integer 9007199254740992) (.integer 9007199254740994))
        (.boolean (op.onIntegers 9007199254740992 9007199254740994))) ∧
    HasValue [] (.methodCall (.array [.integer 9007199254740994, .integer 9007199254740992]) "indexOf"
      [.integer 9007199254740992]) (.integer 1) := by
  have hitems : HasValue [] (.array [.integer 9007199254740994, .integer 9007199254740992])
      (.array ([9007199254740994, 9007199254740992].map .integer)) :=
    .array (.cons (hasValue_integer _) (.cons (hasValue_integer _) .nil))
  have h := comparison_integers (hasValue_integer 9007199254740992) (hasValue_integer 9007199254740994) hitems
  have hplace : [(9007199254740994 : Int64), 9007199254740992].findIdx? (· = 9007199254740992) = some 1 := by
    decide +kernel
  refine ⟨h.1, ?_, ?_⟩
  · have ha : (9007199254740992 : Int64).toInt = 9007199254740992 := by decide +kernel
    have hb : (9007199254740994 : Int64).toInt = 9007199254740994 := by decide +kernel
    have hapart : ¬ Collide 9007199254740992 9007199254740994 := by decide +kernel
    have hright := h.2.1.2 hapart
    rwa [ha, hb] at hright
  · have hbefore : [(9007199254740994 : Int64), 9007199254740992].takeWhile (· ≠ 9007199254740992) =
      [9007199254740994] := by decide +kernel
    have hapart : ¬ Collide 9007199254740994 9007199254740992 := by decide +kernel
    have hfound := h.2.2.2.1 (hbefore ▸ List.forall_mem_singleton.2 hapart)
    rwa [hplace] at hfound

/-- Two different numbers can be equal, and a search can find one that is not there. -/
theorem comparison_integers_collide :
    HasValue [] (.binary (.comparison .strictEqual) (.integer 9007199254740993) (.integer 9007199254740992))
      (.boolean true) ∧
    HasValue [] (.binary (.comparison .greaterThan) (.integer 9007199254740993) (.integer 9007199254740992))
      (.boolean false) ∧
    HasValue [] (.methodCall (.array [.integer 9007199254740992]) "indexOf" [.integer 9007199254740993])
      (.integer 0) := by
  have ha : HasValue [] (.integer 9007199254740993) (.integer 9007199254740993) := hasValue_integer _
  have hb : HasValue [] (.integer 9007199254740992) (.integer 9007199254740992) := hasValue_integer _
  have hitems : HasValue [] (.array [.integer 9007199254740992]) (.array ([9007199254740992].map .integer)) :=
    .array (.cons hb .nil)
  have hplace : [(9007199254740992 : Int64)].findIdx?
      (fun v => nearestDouble v.toInt = nearestDouble (9007199254740993 : Int64).toInt) = some 0 := by
    decide +kernel
  refine ⟨(hasValue_comparison_iff _ ha hb _).2 (by decide +kernel),
    (hasValue_comparison_iff _ ha hb _).2 (by decide +kernel), ?_⟩
  have hfound := hasValue_indexOf hitems ha
  rwa [hplace] at hfound

end Expressions

end Script

end LiveNotes
