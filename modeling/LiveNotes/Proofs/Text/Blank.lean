import Mathlib.Data.List.Infix
import LiveNotes.Text.Blank

/-!
Trimming: what it takes away is blank, what it leaves starts and ends with no blank, and doing it again
changes nothing.

* `exists_trim`: a text is its trimmed form with blanks around it;
* `trim_surrounded`: blanks around a text do not matter;
* `trim_trim`, `trim_eq_nil_iff`, `mem_trim_iff`.
-/

namespace LiveNotes.Text

variable {s t a b : List Char} {c : Char}

@[simp] theorem allBlank_iff : allBlank s = true ↔ ∀ c ∈ s, isBlank c = true := List.all_eq_true

theorem isAlphanum_iff : c.isAlphanum = true ↔ (48 ≤ c.toNat ∧ c.toNat ≤ 57) ∨
    (97 ≤ c.toNat ∧ c.toNat ≤ 122) ∨ (65 ≤ c.toNat ∧ c.toNat ≤ 90) := by
  have hranges : c.isAlphanum = ((decide (65 ≤ c.val ∧ c.val ≤ 90) ||
    (decide (97 ≤ c.val) && decide (c.val ≤ 122))) || (decide (48 ≤ c.val) && decide (c.val ≤ 57))) := rfl
  simp only [hranges, UInt32.le_iff_toNat_le, Bool.or_eq_true, Bool.and_eq_true, decide_eq_true_eq]
  change ((65 ≤ c.toNat ∧ c.toNat ≤ 90) ∨ (97 ≤ c.toNat ∧ c.toNat ≤ 122)) ∨
    48 ≤ c.toNat ∧ c.toNat ≤ 57 ↔ _
  omega

/-- A letter or digit of ASCII is not blank. -/
theorem isBlank_of_isAlphanum (h : c.isAlphanum = true) : isBlank c = false := by
  rw [isAlphanum_iff] at h
  simp only [isBlank, Bool.or_eq_false_iff, Bool.and_eq_false_iff, decide_eq_false_iff_not, beq_eq_false_iff_ne]
  omega

theorem trimStart_append (ha : allBlank a = true) (s : List Char) : trimStart (a ++ s) = trimStart s :=
  List.dropWhile_append_of_pos (allBlank_iff.1 ha)

theorem trimStart_cons (hc : isBlank c = false) (s : List Char) : trimStart (c :: s) = c :: s := by
  rw [trimStart, List.dropWhile_cons, hc]
  rfl

/-- A text is what trimming its start leaves, with blanks in front. -/
theorem exists_trimStart (s : List Char) : ∃ a, allBlank a = true ∧ s = a ++ trimStart s :=
  ⟨s.takeWhile isBlank, List.all_takeWhile, List.takeWhile_append_dropWhile.symm⟩

theorem trimStart_eq_nil_iff : trimStart s = [] ↔ allBlank s = true := by
  refine ⟨fun h => ?_, fun h => by simpa using trimStart_append h []⟩
  obtain ⟨a, ha, hs⟩ := exists_trimStart s
  rwa [hs, h, List.append_nil]

theorem trimEnd_append (hb : allBlank b = true) (s : List Char) : trimEnd (s ++ b) = trimEnd s := by
  rw [trimEnd, trimEnd, List.reverse_append, List.dropWhile_append_of_pos]
  simpa using hb

/-- A text is what trimming its end leaves, with blanks behind. -/
theorem exists_trimEnd (s : List Char) : ∃ b, allBlank b = true ∧ s = trimEnd s ++ b := by
  obtain ⟨a, ha, hs⟩ := exists_trimStart s.reverse
  refine ⟨a.reverse, by simpa using ha, ?_⟩
  rw [← List.reverse_inj, hs]
  simp [trimEnd, trimStart]

/-- What stands before a character that is not blank stays when the end is trimmed. -/
theorem trimEnd_append_cons (hc : isBlank c = false) (s t : List Char) :
    trimEnd (s ++ c :: t) = s ++ c :: trimEnd t := by
  have hstart : trimStart (c :: s.reverse) = c :: s.reverse := trimStart_cons hc s.reverse
  rw [trimStart] at hstart
  rw [trimEnd, trimEnd, List.reverse_append, List.reverse_cons, List.append_assoc, List.singleton_append,
    List.dropWhile_append, hstart]
  split
  · next h => simp [List.isEmpty_iff.1 h]
  · simp

/-- A text is its trimmed form with blanks around it. -/
theorem exists_trim (s : List Char) :
    ∃ a b, allBlank a = true ∧ allBlank b = true ∧ s = a ++ (trim s ++ b) := by
  obtain ⟨a, ha, hs⟩ := exists_trimStart s
  obtain ⟨b, hb, ht⟩ := exists_trimEnd (trimStart s)
  exact ⟨a, b, ha, hb, by rw [trim, ← ht, ← hs]⟩

/-- Nothing is left of a text exactly when it is blank. -/
theorem trim_eq_nil_iff : trim s = [] ↔ allBlank s = true := by
  refine ⟨fun h => ?_, fun h => ?_⟩
  · obtain ⟨a, b, ha, hb, hs⟩ := exists_trim s
    rw [h, List.nil_append] at hs
    rw [hs, allBlank, List.all_append, Bool.and_eq_true]
    exact ⟨ha, hb⟩
  · rw [trim, trimStart_eq_nil_iff.2 h]
    rfl

/-- Trimming takes no character away that is not blank. -/
theorem mem_trim_iff (hc : isBlank c = false) : c ∈ trim s ↔ c ∈ s := by
  obtain ⟨a, b, ha, hb, hs⟩ := exists_trim s
  have hna : c ∉ a := fun h => by simp [allBlank_iff.1 ha c h] at hc
  have hnb : c ∉ b := fun h => by simp [allBlank_iff.1 hb c h] at hc
  conv_rhs => rw [hs]
  simp [hna, hnb]

/-- Blanks around a text do not matter. -/
theorem trim_surrounded (ha : allBlank a = true) (hb : allBlank b = true) (s : List Char) :
    trim (a ++ (s ++ b)) = trim s := by
  rw [trim, trimStart_append ha, trim]
  by_cases hs : trimStart s = []
  · rw [trimStart_append (trimStart_eq_nil_iff.1 hs), trimStart_eq_nil_iff.2 hb, hs]
  · have : trimStart (s ++ b) = trimStart s ++ b := by
      simp only [trimStart] at hs ⊢
      rw [List.dropWhile_append, if_neg (by simpa using hs)]
    rw [this, trimEnd_append hb]

/-- Trimming again changes nothing. -/
@[simp] theorem trim_trim (s : List Char) : trim (trim s) = trim s := by
  obtain ⟨a, b, ha, hb, hs⟩ := exists_trim s
  conv_rhs => rw [hs, trim_surrounded ha hb]

end LiveNotes.Text
