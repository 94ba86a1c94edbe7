import Mathlib.Data.List.Infix
import LiveNotes.Text.Search

/-!
What the search for one text inside another finds, and what the operations that rest on it give.

* `Clear`: the texts in which no occurrence of another begins;
* `cut?_eq_none_iff`, `cut?_append`, `not_infix_of_cut?`, `prefix_of_cut?`: a cut is at the first
  occurrence, and there is none without one;
* `cut_induction`: induction on the occurrences;
* `indexOf?_eq_some`: the place of the first occurrence;
* `replaceAll_of_cut`, `replaceAll_append`, `replaceAll_cons`: replacing, one occurrence or one character at
  a time;
* `splitAll_of_cut`, `intercalate_splitAll`, `occursIn_iff`: splitting, and joining the parts again;
* `splitAt_eq_splitOn`: splitting at a character is `List.splitOn`;
* `cutLast?_append`: the last occurrence of a character.
-/

namespace LiveNotes.Text

variable {lead sep s t rest : List Char} {c : Char}

/-! ### Starts -/

@[simp] theorem stripLead?_append (lead rest : List Char) : stripLead? lead (lead ++ rest) = some rest :=
  stripLead?_eq_some.2 rfl

theorem stripLead?_eq_none_iff : stripLead? lead s = none ↔ ¬ lead <+: s := by
  rw [Option.eq_none_iff_forall_ne_some]
  refine ⟨fun h ⟨rest, hr⟩ => h rest (stripLead?_eq_some.2 hr.symm), fun h rest hr => h ?_⟩
  exact ⟨rest, (stripLead?_eq_some.1 hr).symm⟩

/-- A start that none of the characters of which can be the next one lies before it. -/
theorem prefix_of_prefix_append (h : lead <+: t ++ rest) (hr : ∀ c, rest.head? = some c → c ∉ lead) :
    lead <+: t := by
  induction lead generalizing t with
  | nil => exact List.nil_prefix
  | cons p lead ih =>
    cases t with
    | nil =>
      obtain ⟨behind, hb⟩ := h
      exact absurd List.mem_cons_self (hr p (by rw [← List.nil_append rest, ← hb]; rfl))
    | cons q t =>
      obtain ⟨rfl, hl⟩ := List.cons_prefix_cons.1 h
      have := ih hl fun c hc hm => hr c hc (List.mem_cons_of_mem _ hm)
      exact List.cons_prefix_cons.2 ⟨rfl, this⟩

/-- Two texts of which neither starts with the other. -/
def Differ (s t : List Char) : Prop := ¬ s <+: t ∧ ¬ t <+: s

instance : DecidableRel Differ := fun s t => by unfold Differ; infer_instance

theorem Differ.not_prefix_append (h : Differ s t) (rest : List Char) : ¬ s <+: t ++ rest := fun hs =>
  (List.prefix_or_prefix_of_prefix hs (List.prefix_append t rest)).elim h.1 h.2

/-- A text in which no occurrence of `lead` begins, whatever follows it. -/
def Clear (lead t : List Char) : Prop := ∀ u ∈ t.tails, u ≠ [] → Differ lead u

instance : DecidableRel Clear := fun lead t => by unfold Clear; infer_instance

theorem clear_cons : Clear lead (c :: t) ↔ Differ lead (c :: t) ∧ Clear lead t := by
  rw [Clear, List.tails, List.forall_mem_cons]
  exact and_congr_left' (forall_prop_of_true (List.cons_ne_nil c t))

/-- No occurrence begins where its first character does not occur. -/
theorem clear_of_not_mem (h : c ∉ t) : Clear (c :: lead) t := by
  induction t with
  | nil => simp [Clear]
  | cons x t ih =>
    rw [List.mem_cons, not_or] at h
    refine clear_cons.2 ⟨⟨?_, ?_⟩, ih h.2⟩
    · exact fun hp => h.1 (List.cons_prefix_cons.1 hp).1
    · exact fun hp => h.1 (List.cons_prefix_cons.1 hp).1.symm

/-! ### Cuts -/

/-- The characters already passed stand in front of what the cut gives without them. -/
theorem cutFrom_eq (sep passed s : List Char) :
    cutFrom sep passed s = (cut? sep s).map fun r => (passed.reverse ++ r.1, r.2) := by
  induction s generalizing passed with
  | nil =>
    unfold cut?
    rw [cutFrom, cutFrom]
    cases stripLead? sep [] <;> simp
  | cons c s ih =>
    unfold cut?
    rw [cutFrom, cutFrom]
    cases stripLead? sep (c :: s) with
    | some rest => simp
    | none =>
      rw [ih (c :: passed), ih [c]]
      cases cut? sep s <;> simp

/-- A text that starts with the separator is cut there. -/
theorem cut?_lead (sep rest : List Char) : cut? sep (sep ++ rest) = some ([], rest) := by
  unfold cut?
  rw [cutFrom.eq_def, stripLead?_append]
  rfl

theorem cut?_nil (hs : sep ≠ []) : cut? sep [] = none := by
  unfold cut?
  rw [cutFrom, stripLead?_eq_none_iff.2 (by simpa using hs)]

theorem cut?_cons (h : stripLead? sep (c :: s) = none) :
    cut? sep (c :: s) = (cut? sep s).map fun r => (c :: r.1, r.2) := by
  conv_lhs => unfold cut?
  rw [cutFrom, h]
  exact cutFrom_eq sep [c] s

/-- There is no cut where the separator does not occur. -/
theorem cut?_eq_none_iff : cut? sep s = none ↔ ¬ sep <:+: s := by
  induction s with
  | nil =>
    by_cases hs : sep = []
    · subst hs
      exact ⟨fun h => by simp [cut?, cutFrom, stripLead?] at h, fun h => absurd List.nil_infix h⟩
    · simp [cut?_nil hs, hs]
  | cons c s ih =>
    rw [List.infix_cons_iff, not_or]
    cases h : stripLead? sep (c :: s) with
    | some rest =>
      have hp : sep <+: c :: s := ⟨rest, (stripLead?_eq_some.1 h).symm⟩
      refine ⟨fun hc => ?_, fun hc => absurd hp hc.1⟩
      rw [stripLead?_eq_some.1 h, cut?_lead] at hc
      cases hc
    | none =>
      rw [cut?_cons h, Option.map_eq_none_iff, ih]
      exact ⟨fun hc => ⟨stripLead?_eq_none_iff.1 h, hc⟩, fun hc => hc.2⟩

/-- A text no end of which is a start of it, apart from all of it and nothing. -/
def Unbordered (s : List Char) : Prop := ∀ n < s.length, 0 < n → ¬ s.drop n <+: s

instance : DecidablePred Unbordered := fun s => by unfold Unbordered; infer_instance

/-- Where the text before a separator does not hold it, no occurrence starts there. -/
theorem not_prefix_append (hs : Unbordered sep) (ht : t ≠ []) (h : ¬ sep <+: t) :
    ¬ sep <+: t ++ (sep ++ rest) := by
  intro hp
  by_cases hl : sep.length ≤ t.length
  · exact h (List.prefix_of_prefix_length_le hp (List.prefix_append _ _) hl)
  · have hlt : t <+: sep :=
      List.prefix_of_prefix_length_le (List.prefix_append _ _) hp (Nat.le_of_not_le hl)
    obtain ⟨w, rfl⟩ := hlt
    -- the occurrence ends inside the separator behind `t`, whose start is then one of its ends
    have hw : w <+: t ++ w :=
      List.prefix_of_prefix_length_le ((List.prefix_append_right_inj t).1 hp)
        (List.prefix_append _ _) (by simp)
    have hpos := List.length_pos_iff.2 ht
    refine hs t.length ?_ hpos ?_
    · simp only [List.length_append] at hl ⊢
      omega
    · rwa [List.drop_left]

/-- A cut is at the first occurrence. -/
theorem cut?_append (hs : Unbordered sep) (h : ¬ sep <:+: s) :
    cut? sep (s ++ (sep ++ rest)) = some (s, rest) := by
  induction s with
  | nil => exact cut?_lead sep rest
  | cons c s ih =>
    rw [List.infix_cons_iff, not_or] at h
    have hc : stripLead? sep (c :: (s ++ (sep ++ rest))) = none :=
      stripLead?_eq_none_iff.2 (not_prefix_append hs (List.cons_ne_nil c s) h.1)
    rw [List.cons_append, cut?_cons hc, ih h.2]
    rfl

/-- A cut at one character is at its first occurrence. -/
theorem cut?_singleton (h : c ∉ s) : cut? [c] (s ++ c :: rest) = some (s, rest) := by
  have hu : Unbordered [c] := by simp [Unbordered]
  have hs : ¬ [c] <:+: s := by simpa [List.singleton_infix_iff] using h
  exact cut?_append hu hs

/-- The parts around the first occurrence of a character are unique. -/
theorem append_cons_inj {a b : List Char} (hs : c ∉ s) (ht : c ∉ t) (h : s ++ c :: a = t ++ c :: b) :
    s = t ∧ a = b := by
  have hc : cut? [c] (s ++ c :: a) = some (s, a) := cut?_singleton hs
  rw [h, cut?_singleton ht] at hc
  cases hc
  exact ⟨rfl, rfl⟩

/-- The separator does not occur before the first occurrence. -/
theorem not_infix_of_cut? {before behind : List Char} (hs : sep ≠ [])
    (h : cut? sep s = some (before, behind)) : ¬ sep <:+: before := by
  induction s generalizing before with
  | nil => cases (cut?_nil hs).symm.trans h
  | cons c s ih =>
    cases hc : stripLead? sep (c :: s) with
    | some r =>
      rw [stripLead?_eq_some.1 hc, cut?_lead] at h
      cases h
      simpa using hs
    | none =>
      rw [cut?_cons hc] at h
      obtain ⟨⟨before, behind⟩, hr, hb⟩ := Option.map_eq_some_iff.1 h
      cases hb
      have hp : c :: before <+: c :: s := ⟨sep ++ behind, by rw [cut?_eq_some hr]; simp⟩
      rw [List.infix_cons_iff, not_or]
      exact ⟨fun hsep => stripLead?_eq_none_iff.1 hc (hsep.trans hp), ih hr⟩

/-- The text before the first occurrence is a start of the text before any other one. -/
theorem prefix_of_cut? {before behind b e : List Char} (h : cut? sep s = some (before, behind))
    (hs : s = b ++ (sep ++ e)) : before <+: b := by
  induction s generalizing before b with
  | nil =>
    obtain ⟨-, hempty⟩ := List.append_eq_nil_iff.1 hs.symm
    obtain ⟨rfl, rfl⟩ := List.append_eq_nil_iff.1 hempty
    cases (cut?_lead [] []).symm.trans h
    exact List.nil_prefix
  | cons c s ih =>
    cases hc : stripLead? sep (c :: s) with
    | some r =>
      rw [stripLead?_eq_some.1 hc, cut?_lead] at h
      cases h
      exact List.nil_prefix
    | none =>
      rw [cut?_cons hc] at h
      obtain ⟨⟨before, behind⟩, hr, hb⟩ := Option.map_eq_some_iff.1 h
      cases hb
      cases b with
      | nil => exact absurd ⟨e, hs.symm⟩ (stripLead?_eq_none_iff.1 hc)
      | cons d b =>
        obtain ⟨rfl, htail⟩ := List.cons_eq_cons.1 hs
        exact List.cons_prefix_cons.2 ⟨rfl, ih hr htail⟩

/-- Induction from the last occurrence of a separator to the first. -/
theorem cut_induction {P : List Char → Prop} (hs : sep ≠ []) (none : ∀ s, cut? sep s = none → P s)
    (some : ∀ s part behind, cut? sep s = some (part, behind) → P behind → P s) (s : List Char) : P s := by
  induction h : s.length using Nat.strong_induction_on generalizing s with
  | _ n ih =>
    cases hc : cut? sep s with
    | none => exact none s hc
    | some r => exact some s r.1 r.2 hc (ih r.2.length (h ▸ length_of_cut? hs hc) r.2 rfl)

/-! ### Places -/

theorem occursIn_eq_isSome : occursIn t s = (indexOf? t s).isSome :=
  Option.isSome_map.symm

/-- The place of a text is the first one at which it stands. -/
theorem indexOf?_eq_some {i : Nat} (h : indexOf? t s = some i) :
    i + t.length ≤ s.length ∧ t <+: s.drop i ∧ ∀ j < i, ¬ t <+: s.drop j := by
  obtain ⟨⟨before, behind⟩, hc, rfl⟩ := Option.map_eq_some_iff.1 h
  have hs : s = before ++ (t ++ behind) := by rw [cut?_eq_some hc, List.append_assoc]
  refine ⟨?_, ?_, fun j hj => ?_⟩
  · rw [hs]
    simp only [List.length_append]
    omega
  · rw [hs, List.drop_left]
    exact List.prefix_append t behind
  · rintro ⟨e, he⟩
    have hother : s = s.take j ++ (t ++ e) := by rw [he, List.take_append_drop]
    have hle := (prefix_of_cut? hc hother).length_le
    rw [List.length_take] at hle
    simp only at hj
    omega

/-! ### Replacing -/

section Replace

variable {old new : List Char}

theorem replaceFrom_eq (ho : old ≠ []) (done s : List Char) :
    replaceFrom old new ho done s = done.reverse ++ replaceFrom old new ho [] s := by
  induction h : s.length using Nat.strong_induction_on generalizing done s with
  | _ n ih =>
    rw [replaceFrom, replaceFrom]
    split
    · rfl
    · next before behind hc =>
      have hl := length_of_cut? ho hc
      rw [ih behind.length (h ▸ hl) _ behind rfl, ih behind.length (h ▸ hl) (_ ++ (_ ++ [])) behind rfl]
      simp

theorem replaceAll_of_none (ho : old ≠ []) (h : cut? old s = none) : replaceAll old new s = s := by
  rw [replaceAll, dif_pos ho, replaceFrom]
  split
  · rfl
  · next h' => cases h.symm.trans h'

/-- The first occurrence is replaced, and all behind it. -/
theorem replaceAll_of_cut (ho : old ≠ []) {part behind : List Char} (h : cut? old s = some (part, behind)) :
    replaceAll old new s = part ++ new ++ replaceAll old new behind := by
  rw [replaceAll, dif_pos ho, replaceFrom, replaceAll, dif_pos ho]
  split
  · next h' => cases h.symm.trans h'
  · next h' =>
    cases h.symm.trans h'
    rw [replaceFrom_eq]
    simp

theorem replaceAll_nil (ho : old ≠ []) : replaceAll old new [] = [] :=
  replaceAll_of_none ho (cut?_nil ho)

/-- An occurrence at the start is replaced. -/
theorem replaceAll_append (ho : old ≠ []) (s : List Char) :
    replaceAll old new (old ++ s) = new ++ replaceAll old new s :=
  replaceAll_of_cut ho (cut?_lead old s)

/-- A character that no occurrence starts at stays. -/
theorem replaceAll_cons (ho : old ≠ []) (h : stripLead? old (c :: s) = none) :
    replaceAll old new (c :: s) = c :: replaceAll old new s := by
  cases hs : cut? old s with
  | none =>
    have hcut : cut? old (c :: s) = none := by rw [cut?_cons h, hs, Option.map_none]
    rw [replaceAll_of_none ho hcut, replaceAll_of_none ho hs]
  | some r =>
    have hcut : cut? old (c :: s) = some (c :: r.1, r.2) := by rw [cut?_cons h, hs, Option.map_some]
    rw [replaceAll_of_cut ho hcut, replaceAll_of_cut ho hs]
    rfl

/-- Replaced by itself, a text stays where it is. -/
theorem replaceAll_self (ho : old ≠ []) (s : List Char) : replaceAll old old s = s := by
  induction s using cut_induction ho with
  | none s h => exact replaceAll_of_none ho h
  | some s part behind h ih => rw [replaceAll_of_cut ho h, ih, ← cut?_eq_some h]

/-- Nothing becomes empty when something is put in the place of every occurrence. -/
theorem replaceAll_ne_nil (ho : old ≠ []) (hn : new ≠ []) (hs : s ≠ []) : replaceAll old new s ≠ [] := by
  obtain ⟨c, s, rfl⟩ := List.exists_cons_of_ne_nil hs
  cases h : stripLead? old (c :: s) with
  | none => simp [replaceAll_cons ho h]
  | some rest =>
    rw [stripLead?_eq_some.1 h, replaceAll_append ho]
    simp [hn]

end Replace

/-! ### Splitting -/

section Split

variable {part behind : List Char}

theorem splitFrom_eq (hs : sep ≠ []) (found : List (List Char)) (s : List Char) :
    splitFrom sep hs found s = found.reverse ++ splitAll sep s := by
  unfold splitAll
  rw [dif_pos hs]
  induction s using cut_induction hs generalizing found with
  | none s hc =>
    have hend (found : List (List Char)) : splitFrom sep hs found s = (s :: found).reverse := by
      rw [splitFrom]
      split
      · rfl
      · next h => cases hc.symm.trans h
    rw [hend, hend, List.reverse_cons]
    rfl
  | some s part behind hc ih =>
    have hpart (found : List (List Char)) :
        splitFrom sep hs found s = splitFrom sep hs (part :: found) behind := by
      rw [splitFrom]
      split
      · next h => cases hc.symm.trans h
      · next h =>
        cases hc.symm.trans h
        rfl
    rw [hpart, hpart, ih, ih [part], List.reverse_cons, List.append_assoc]
    rfl

theorem splitAll_of_none (hs : sep ≠ []) (h : cut? sep s = none) : splitAll sep s = [s] := by
  rw [splitAll, dif_pos hs, splitFrom]
  split
  · rfl
  · next h' => cases h.symm.trans h'

/-- The first part ends at the first occurrence. -/
theorem splitAll_of_cut (hs : sep ≠ []) (h : cut? sep s = some (part, behind)) :
    splitAll sep s = part :: splitAll sep behind := by
  conv_lhs => rw [splitAll, dif_pos hs, splitFrom]
  split
  · next h' => cases h.symm.trans h'
  · next h' =>
    cases h.symm.trans h'
    exact splitFrom_eq hs [part] behind

theorem splitAll_ne_nil (hs : sep ≠ []) (s : List Char) : splitAll sep s ≠ [] := by
  cases h : cut? sep s with
  | none => simp [splitAll_of_none hs h]
  | some r => simp [splitAll_of_cut hs h]

/-- Between the parts there are the occurrences: joined with another text they are replaced by it. -/
theorem intercalate_splitAll (hs : sep ≠ []) (new s : List Char) :
    new.intercalate (splitAll sep s) = replaceAll sep new s := by
  induction s using cut_induction hs with
  | none s h => rw [splitAll_of_none hs h, replaceAll_of_none hs h, List.intercalate_singleton]
  | some s part behind h ih =>
    obtain ⟨p, ps, hparts⟩ := List.exists_cons_of_ne_nil (splitAll_ne_nil hs behind)
    rw [splitAll_of_cut hs h, replaceAll_of_cut hs h, ← ih, hparts, List.intercalate_cons_cons]

/-- A text occurs where it splits into more than one part. -/
theorem occursIn_iff (hs : sep ≠ []) : occursIn sep s = true ↔ 1 < (splitAll sep s).length := by
  unfold occursIn
  cases h : cut? sep s with
  | none => simp [splitAll_of_none hs h]
  | some r =>
    have := List.length_pos_iff.2 (splitAll_ne_nil hs r.2)
    simp [splitAll_of_cut hs h, this]

/-- Splitting at a character is that of lists. -/
theorem splitAt_eq_splitOn (sep : Char) (s : List Char) : splitAt sep s = s.splitOn sep := by
  have hs : [sep] ≠ [] := List.cons_ne_nil sep []
  unfold splitAt
  induction s using cut_induction hs with
  | none s h =>
    have hm : sep ∉ s := by simpa [List.singleton_infix_iff] using cut?_eq_none_iff.1 h
    rw [splitAll_of_none hs h, List.splitOn_eq_singleton hm]
  | some s part behind h ih =>
    have hm : sep ∉ part := by simpa [List.singleton_infix_iff] using not_infix_of_cut? hs h
    rw [splitAll_of_cut hs h, ih, cut?_eq_some h, List.append_assoc, List.singleton_append,
      List.splitOn_append_cons_self_of_not_mem hm]

end Split

/-! ### Splitting at a character -/

theorem not_mem_of_mem_splitOn (h : t ∈ s.splitOn c) : c ∉ t := by
  induction s generalizing t with
  | nil => simp_all
  | cons x s ih =>
    rw [List.splitOn_cons_eq_if_modifyHead] at h
    split at h
    · rcases List.mem_cons.1 h with rfl | h
      · exact List.not_mem_nil
      · exact ih h
    · next hx =>
      obtain ⟨p, ps, hp⟩ := List.exists_cons_of_ne_nil (List.splitOn_ne_nil c s)
      rw [hp, List.modifyHead_cons] at h
      rcases List.mem_cons.1 h with rfl | h
      · have hm : c ∉ p := ih (hp ▸ List.mem_cons_self)
        rw [List.mem_cons, not_or]
        exact ⟨fun e => hx (by rw [e, beq_self_eq_true]), hm⟩
      · exact ih (hp ▸ List.mem_cons_of_mem _ h)

/-! ### The last occurrence of a character -/

theorem exists_last_of_mem (h : c ∈ s) : ∃ before behind, c ∉ behind ∧ s = before ++ c :: behind := by
  obtain ⟨behind, before, he, hm⟩ := List.eq_append_cons_of_mem (List.mem_reverse.2 h)
  refine ⟨before.reverse, behind.reverse, by simpa using hm, ?_⟩
  rw [← List.reverse_inj, he]
  simp

theorem cutLast?_append (h : c ∉ t) : cutLast? c (s ++ c :: t) = some (s, t) := by
  have hd : (s ++ c :: t).reverse = t.reverse ++ c :: s.reverse := by simp
  have ht : ∀ x ∈ t.reverse, (x != c) = true := by
    intro x hx
    have hx := List.mem_reverse.1 hx
    simpa using fun e : x = c => h (e ▸ hx)
  rw [cutLast?, hd, List.span_eq_takeWhile_dropWhile, List.takeWhile_append_of_pos ht,
    List.dropWhile_append_of_pos ht]
  simp

theorem cutLast?_eq_none (h : c ∉ s) : cutLast? c s = none := by
  have hs : ∀ x ∈ s.reverse, (x != c) = true := by
    intro x hx
    have hx := List.mem_reverse.1 hx
    simpa using fun e : x = c => h (e ▸ hx)
  have hd : s.reverse.dropWhile (· != c) = [] := by
    rw [← List.append_nil s.reverse, List.dropWhile_append_of_pos hs, List.dropWhile_nil]
  rw [cutLast?, List.span_eq_takeWhile_dropWhile, hd]

end LiveNotes.Text
