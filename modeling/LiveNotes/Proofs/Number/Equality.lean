import Mathlib
import LiveNotes.Number.Double

/-!
Equality of doubles, as values are compared: the two zeros are equal, and a double that is no number
differs from itself, so this is no equivalence. It is symmetric and transitive, and the order of two
doubles is turned round with them.
-/

namespace LiveNotes.Number.Double

open Float.Model (UnpackedFloat)

/-- Two doubles taken apart compare as equal if they are the same number, or both of them zero. -/
theorem compare_eq_iff (a b : UnpackedFloat) : a.compare b = some .eq ↔
    (a = b ∧ a ≠ .notANumber) ∨ ∃ s t, a = .zero s ∧ b = .zero t := by
  have hsign (s t : UnpackedFloat.Sign) : compare s t = .eq ↔ s = t := by
    cases s <;> cases t <;> simp [compare]
  have hsize (e f : Int) (m n : Nat) :
      (compare e f).then (compare m n) = .eq ↔ m = n ∧ e = f := by
    rw [Ordering.then_eq_eq, Int.compare_eq_eq, Nat.compare_eq_eq, and_comm]
  have hswap (o : Ordering) : o.swap = .eq ↔ o = .eq := by
    cases o <;> simp
  cases a with
  | notANumber => simp [UnpackedFloat.compare]
  | infinity s =>
    cases b with
    | infinity t => simp [UnpackedFloat.compare, hsign]
    | _ => cases s <;> simp [UnpackedFloat.compare]
  | zero s =>
    cases b with
    | infinity t => cases t <;> simp [UnpackedFloat.compare]
    | finite t _ _ _ => cases t <;> simp [UnpackedFloat.compare]
    | _ => simp [UnpackedFloat.compare]
  | finite s m e _ =>
    cases b with
    | infinity t => cases t <;> simp [UnpackedFloat.compare]
    | finite t n f _ => cases s <;> cases t <;> simp [UnpackedFloat.compare, hsize, hswap]
    | _ => cases s <;> simp [UnpackedFloat.compare]

/-- Two doubles the other way round compare the other way round. -/
theorem compare_swap (a b : UnpackedFloat) : b.compare a = (a.compare b).map Ordering.swap := by
  have hsign (s t : UnpackedFloat.Sign) : compare t s = (compare s t).swap := by
    cases s <;> cases t <;> rfl
  have hsize (e f : Int) (m n : Nat) :
      (compare f e).then (compare n m) = ((compare e f).then (compare m n)).swap := by
    rw [Ordering.swap_then, Int.compare_swap, Nat.compare_swap]
  cases a with
  | notANumber => cases b <;> rfl
  | infinity s =>
    cases b with
    | infinity t => exact congrArg some (hsign s t)
    | finite t n f _ => cases s <;> cases t <;> rfl
    | _ => cases s <;> rfl
  | zero s =>
    cases b with
    | infinity t => cases t <;> rfl
    | finite t n f _ => cases t <;> rfl
    | _ => rfl
  | finite s m e _ =>
    cases b with
    | notANumber => cases s <;> rfl
    | infinity t => cases s <;> cases t <;> rfl
    | zero t => cases s <;> rfl
    | finite t n f _ =>
      cases s <;> cases t
      · exact congrArg some (congrArg Ordering.swap (hsize e f m n))
      · rfl
      · rfl
      · exact congrArg some (hsize e f m n)

/-- Two doubles are equal if they are the same number, or both of them zero. -/
theorem beq_iff (x y : Float) : (x == y) = true ↔
    (x.toModel.unpack = y.toModel.unpack ∧ x.toModel.unpack ≠ .notANumber) ∨
      ∃ s t, x.toModel.unpack = .zero s ∧ y.toModel.unpack = .zero t := by
  rw [← compare_eq_iff]
  change (x.toModel.unpack.compare y.toModel.unpack == some .eq) = true ↔ _
  exact beq_iff_eq

theorem beq_symm {x y : Float} (h : (x == y) = true) : (y == x) = true := by
  rw [beq_iff] at h ⊢
  rcases h with ⟨he, hn⟩ | ⟨s, t, hx, hy⟩
  · exact .inl ⟨he.symm, he ▸ hn⟩
  · exact .inr ⟨t, s, hy, hx⟩

theorem beq_comm (x y : Float) : (x == y) = (y == x) :=
  Bool.eq_iff_iff.2 ⟨beq_symm, beq_symm⟩

theorem beq_trans {x y z : Float} (hxy : (x == y) = true) (hyz : (y == z) = true) :
    (x == z) = true := by
  rw [beq_iff] at *
  rcases hxy with ⟨he, hn⟩ | ⟨s, t, hx, hy⟩
  · rwa [he]
  · rcases hyz with ⟨he, -⟩ | ⟨-, u, -, hz⟩
    · exact .inr ⟨s, t, hx, he ▸ hy⟩
    · exact .inr ⟨s, u, hx, hz⟩

end LiveNotes.Number.Double
