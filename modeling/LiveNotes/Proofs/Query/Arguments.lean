import LiveNotes.Proofs.Text.Blank
import LiveNotes.Proofs.Text.Search
import LiveNotes.Query.Parser

/-!
How the arguments of code functions are taken apart, said by the commas of the text and by what is
assigned behind them.

* `assigned?_eq_some_iff`: an assignment is a name and an equals sign, with blanks around the name;
* `splitFunction?_eq_some_iff`, `splitFunction?_eq_some_none_iff`: the last assignment to `func` that
  gives it anything counts;
* `splitLanguage?_eq_some_iff`: the last assignment to `lang` counts;
* `splitCodeBlock?_eq_some_iff`, `splitCodeBlock?_eq_some_none_iff`: the first assignment to `code`
  counts that has an assignment to `lang` behind it.
-/

namespace LiveNotes

open Text

variable {name s t u v a b : List Char}

/-! ### Assignments -/

/-- A word that something can be assigned to: neither a blank nor a comma is in it. -/
structure IsKeyword (name : List Char) : Prop where
  ne_nil : name ≠ []
  plain : ∀ c ∈ name, isBlank c = false ∧ c ≠ ','

theorem isKeyword_of_all (hne : name ≠ [])
    (h : (name.all fun c => !isBlank c && c != ',') = true) : IsKeyword name where
  ne_nil := hne
  plain c hc := by simpa using List.all_eq_true.1 h c hc

theorem isKeyword_func : IsKeyword "func".toList := isKeyword_of_all (by decide) (by decide)

theorem isKeyword_code : IsKeyword "code".toList := isKeyword_of_all (by decide) (by decide)

theorem isKeyword_lang : IsKeyword "lang".toList := isKeyword_of_all (by decide) (by decide)

theorem IsKeyword.trimStart_append (hn : IsKeyword name) (s : List Char) :
    trimStart (name ++ s) = name ++ s := by
  obtain ⟨c, rest, rfl⟩ := List.exists_cons_of_ne_nil hn.ne_nil
  exact trimStart_cons (hn.plain c List.mem_cons_self).1 _

/-- An assignment is a name and an equals sign, with blanks around the name. -/
theorem assigned?_eq_some_iff (hn : IsKeyword name) : assigned? name s = some v ↔
    ∃ a b, allBlank a = true ∧ allBlank b = true ∧ s = a ++ (name ++ (b ++ '=' :: v)) := by
  constructor
  · intro h
    obtain ⟨a, ha, hs⟩ := exists_trimStart s
    unfold assigned? at h
    split at h
    · cases h
    · next behind hb =>
      obtain ⟨b, hb', ht⟩ := exists_trimStart behind
      split at h
      · next hv =>
        cases h
        exact ⟨a, b, ha, hb', by rw [← hv, ← ht, ← stripLead?_eq_some.1 hb, ← hs]⟩
      · cases h
  · rintro ⟨a, b, ha, hb, rfl⟩
    have hv : trimStart (b ++ '=' :: v) = '=' :: v := by
      rw [trimStart_append hb, trimStart_cons (by decide)]
    unfold assigned?
    rw [trimStart_append ha, hn.trimStart_append, stripLead?_append]
    simp only [hv]

/-- More text behind an assignment is assigned too. -/
theorem assigned?_append (hn : IsKeyword name) (h : assigned? name s = some v) (t : List Char) :
    assigned? name (s ++ t) = some (v ++ t) := by
  obtain ⟨a, b, ha, hb, rfl⟩ := (assigned?_eq_some_iff hn).1 h
  exact (assigned?_eq_some_iff hn).2 ⟨a, b, ha, hb, by simp⟩

theorem assigned?_blank_append (ha : allBlank a = true) (s : List Char) :
    assigned? name (a ++ s) = assigned? name s := by
  rw [assigned?, assigned?, trimStart_append ha]

/-- An assignment at the start of a text with a comma stands before the comma. -/
theorem assigned?_of_comma (hn : IsKeyword name) (h : assigned? name (s ++ ',' :: t) = some v) :
    ∃ w, assigned? name s = some w ∧ v = w ++ ',' :: t := by
  obtain ⟨a, b, ha, hb, he⟩ := (assigned?_eq_some_iff hn).1 h
  have hplain : ',' ∉ a ++ (name ++ (b ++ ['='])) := by
    have hblank : isBlank ',' = false := by decide
    simp only [List.mem_append, List.mem_singleton, not_or]
    refine ⟨fun hc => ?_, fun hc => (hn.plain _ hc).2 rfl, fun hc => ?_, by decide⟩
    · simp [allBlank_iff.1 ha _ hc] at hblank
    · simp [allBlank_iff.1 hb _ hc] at hblank
  have he : s ++ ',' :: t = (a ++ (name ++ (b ++ ['=']))) ++ v := by simpa using he
  rcases List.append_eq_append_iff.1 he with ⟨x, hx, hv⟩ | ⟨x, rfl, hv⟩
  · cases x with
    | nil =>
      refine ⟨[], (assigned?_eq_some_iff hn).2 ⟨a, b, ha, hb, ?_⟩, by simpa using hv.symm⟩
      simpa using hx.symm
    | cons c x =>
      obtain ⟨rfl, -⟩ := List.cons_eq_cons.1 hv
      exact absurd (by simp [hx]) hplain
  · exact ⟨x, (assigned?_eq_some_iff hn).2 ⟨a, b, ha, hb, by simp⟩, hv⟩

/-- Before a comma, and without its blanks, a text assigns nothing that it does not assign. -/
theorem assigned?_trim_eq_none (hn : IsKeyword name) (h : assigned? name s = none) :
    assigned? name (trim s) = none := by
  obtain ⟨a, b, ha, hb, hs⟩ := exists_trim s
  rw [Option.eq_none_iff_forall_ne_some] at h ⊢
  intro v hv
  refine h (v ++ b) ?_
  rw [hs, assigned?_blank_append ha, assigned?_append hn hv]

/-! ### Texts behind commas -/

/-- The text `u` stands behind a comma of `s`. -/
def BehindComma (s u : List Char) : Prop := ∃ a, s = a ++ ',' :: u

theorem BehindComma.append_left (h : BehindComma s u) (a : List Char) : BehindComma (a ++ s) u := by
  obtain ⟨x, rfl⟩ := h
  exact ⟨a ++ x, by simp⟩

theorem BehindComma.append_right (h : BehindComma s u) (t : List Char) :
    BehindComma (s ++ t) (u ++ t) := by
  obtain ⟨x, rfl⟩ := h
  exact ⟨x, by simp⟩

theorem BehindComma.trans (h : BehindComma s t) (hu : BehindComma t u) : BehindComma s u := by
  obtain ⟨x, rfl⟩ := h
  exact (hu.append_left [',']).append_left x

theorem not_behindComma (h : ',' ∉ s) : ¬ BehindComma s u := by
  rintro ⟨x, rfl⟩
  simp at h

theorem behindComma_append : BehindComma (s ++ t) u ↔
    (∃ w, BehindComma s w ∧ u = w ++ t) ∨ BehindComma t u := by
  constructor
  · rintro ⟨x, hx⟩
    rcases List.append_eq_append_iff.1 hx with ⟨y, rfl, ht⟩ | ⟨y, rfl, hu⟩
    · exact .inr ⟨y, ht⟩
    · cases y with
      | nil => exact .inr ⟨[], by simpa using hu.symm⟩
      | cons c y =>
        obtain ⟨rfl, rfl⟩ := List.cons_eq_cons.1 hu
        exact .inl ⟨y, ⟨x, rfl⟩, rfl⟩
  · rintro (⟨w, hw, rfl⟩ | h)
    · exact hw.append_right t
    · exact h.append_left s

/-- Only behind the commas of the rest, where there are none in front. -/
theorem behindComma_append_of_not_mem (h : ',' ∉ s) : BehindComma (s ++ t) u ↔ BehindComma t u := by
  rw [behindComma_append]
  exact ⟨fun h' => h'.elim (fun ⟨w, hw, _⟩ => absurd hw (not_behindComma h)) id, .inr⟩

theorem behindComma_comma : BehindComma (',' :: t) u ↔ u = t ∨ BehindComma t u := by
  constructor
  · rintro ⟨_ | ⟨c, x⟩, hx⟩
    · exact .inl (List.cons_eq_cons.1 hx).2.symm
    · exact .inr ⟨x, (List.cons_eq_cons.1 hx).2⟩
  · rintro (rfl | h)
    · exact ⟨[], rfl⟩
    · exact h.append_left [',']

/-- The splits at the commas of two texts with a comma between them. -/
theorem commaSplits_append (passed s t : List Char) :
    commaSplits passed (s ++ ',' :: t) =
      (commaSplits passed s).map (fun r => (r.1, r.2 ++ ',' :: t)) ++
        (s.reverse ++ passed, t) :: commaSplits (',' :: (s.reverse ++ passed)) t := by
  induction s generalizing passed with
  | nil => simp [commaSplits]
  | cons c s ih =>
    rw [List.cons_append, commaSplits, commaSplits, ih]
    split <;> simp

theorem mem_commaSplits {passed : List Char} {r : List Char × List Char} :
    r ∈ commaSplits passed s ↔ ∃ a, s = a ++ ',' :: r.2 ∧ r.1 = a.reverse ++ passed := by
  induction s generalizing passed with
  | nil => simp [commaSplits]
  | cons c s ih =>
    obtain ⟨p, u⟩ := r
    have hcons : (∃ a, c :: s = a ++ ',' :: u ∧ p = a.reverse ++ passed) ↔
        (c = ',' ∧ s = u ∧ p = passed) ∨ ∃ a, s = a ++ ',' :: u ∧ p = a.reverse ++ c :: passed := by
      constructor
      · rintro ⟨_ | ⟨d, a⟩, hs, hp⟩
        · exact .inl ⟨(List.cons_eq_cons.1 hs).1, (List.cons_eq_cons.1 hs).2, hp⟩
        · obtain ⟨rfl, ht⟩ := List.cons_eq_cons.1 hs
          exact .inr ⟨a, ht, by simpa using hp⟩
      · rintro (⟨rfl, rfl, rfl⟩ | ⟨a, rfl, rfl⟩)
        · exact ⟨[], rfl, rfl⟩
        · exact ⟨c :: a, rfl, by simp⟩
    rw [hcons, commaSplits]
    split
    · next hc => simp [ih, hc, eq_comm, and_comm]
    · next hc => simp [ih, hc]

/-! ### The last and the first comma -/

section

variable {α : Type} {h : List Char → Option α} {x : α}

/-- The last comma behind which something is found. -/
theorem exists_last (hu : BehindComma s u) (hx : h u ≠ none) :
    ∃ a t, s = a ++ ',' :: t ∧ h t ≠ none ∧ ∀ w, BehindComma t w → h w = none := by
  induction hn : u.length using Nat.strong_induction_on generalizing u with
  | _ n ih =>
    by_cases hw : ∀ w, BehindComma u w → h w = none
    · obtain ⟨a, ha⟩ := hu
      exact ⟨a, u, ha, hx, hw⟩
    · push Not at hw
      obtain ⟨w, hw, hx⟩ := hw
      have hl : w.length < u.length := by
        obtain ⟨a, rfl⟩ := hw
        simp only [List.length_append, List.length_cons]
        omega
      exact ih _ (hn ▸ hl) (hu.trans hw) hx rfl

/-- The first comma behind which something is found. -/
theorem exists_first (hu : BehindComma s u) (hx : h u ≠ none) :
    ∃ a t, s = a ++ ',' :: t ∧ h t ≠ none ∧ ∀ w, BehindComma a w → h (w ++ ',' :: t) = none := by
  obtain ⟨a, rfl⟩ := hu
  induction hn : a.length using Nat.strong_induction_on generalizing a u with
  | _ n ih =>
    by_cases hw : ∀ w, BehindComma a w → h (w ++ ',' :: u) = none
    · exact ⟨a, u, rfl, hx, hw⟩
    · push Not at hw
      obtain ⟨w, ⟨b, rfl⟩, hw⟩ := hw
      have hl : b.length < (b ++ ',' :: w).length := by
        simp only [List.length_append, List.length_cons]
        omega
      have := ih _ (hn ▸ hl) (u := w ++ ',' :: u) hw b rfl
      simpa using this

theorem getLast?_commaSplits_eq_none_iff :
    ((commaSplits [] s).filterMap fun r => (h r.2).map (r.1, ·)).getLast? = none ↔
      ∀ u, BehindComma s u → h u = none := by
  rw [List.getLast?_eq_none_iff, List.filterMap_eq_nil_iff]
  simp only [Option.map_eq_none_iff, mem_commaSplits]
  constructor
  · rintro hr u ⟨a, ha⟩
    exact hr (a.reverse, u) ⟨a, ha, by simp⟩
  · rintro hu ⟨p, u⟩ ⟨a, ha, -⟩
    exact hu u ⟨a, ha⟩

/-- What is found behind the last comma behind which something is found, with the text before it. -/
theorem getLast?_commaSplits_eq_some_iff :
    ((commaSplits [] s).filterMap fun r => (h r.2).map (r.1, ·)).getLast? = some (a, x) ↔
      ∃ t, s = a.reverse ++ ',' :: t ∧ h t = some x ∧ ∀ u, BehindComma t u → h u = none := by
  have hfound (a t : List Char) (y : α) (ht : h t = some y) (hu : ∀ u, BehindComma t u → h u = none) :
      ((commaSplits [] (a ++ ',' :: t)).filterMap fun r => (h r.2).map (r.1, ·)).getLast? =
        some (a.reverse, y) := by
    have hnone : (commaSplits (',' :: (a.reverse ++ [])) t).filterMap
        (fun r => (h r.2).map (r.1, ·)) = [] := by
      rw [List.filterMap_eq_nil_iff]
      rintro r hr
      obtain ⟨b, hb, -⟩ := mem_commaSplits.1 hr
      rw [hu r.2 ⟨b, hb⟩]
      rfl
    rw [commaSplits_append, List.filterMap_append, List.filterMap_cons, hnone]
    simp [ht]
  constructor
  · intro hl
    have hne : ∃ u, BehindComma s u ∧ h u ≠ none := by
      by_contra hno
      push Not at hno
      rw [getLast?_commaSplits_eq_none_iff.2 hno] at hl
      cases hl
    obtain ⟨u, hu, hx⟩ := hne
    obtain ⟨b, t, rfl, ht, hw⟩ := exists_last hu hx
    obtain ⟨y, hy⟩ := Option.ne_none_iff_exists'.1 ht
    rw [hfound b t y hy hw] at hl
    cases hl
    exact ⟨t, by simp, hy, hw⟩
  · rintro ⟨t, rfl, ht, hu⟩
    simpa using hfound a.reverse t x ht hu

theorem findSome?_commaSplits_eq_none_iff :
    ((commaSplits [] s).findSome? fun r => (h r.2).map (r.1, ·)) = none ↔
      ∀ u, BehindComma s u → h u = none := by
  rw [List.findSome?_eq_none_iff]
  simp only [Option.map_eq_none_iff, mem_commaSplits]
  constructor
  · rintro hr u ⟨a, ha⟩
    exact hr (a.reverse, u) ⟨a, ha, by simp⟩
  · rintro hu ⟨p, u⟩ ⟨a, ha, -⟩
    exact hu u ⟨a, ha⟩

/-- What is found behind the first comma behind which something is found, with the text before it. -/
theorem findSome?_commaSplits_eq_some_iff :
    ((commaSplits [] s).findSome? fun r => (h r.2).map (r.1, ·)) = some (a, x) ↔
      ∃ t, s = a.reverse ++ ',' :: t ∧ h t = some x ∧
        ∀ w, BehindComma a.reverse w → h (w ++ ',' :: t) = none := by
  have hfound (a t : List Char) (y : α) (ht : h t = some y)
      (hw : ∀ w, BehindComma a w → h (w ++ ',' :: t) = none) :
      ((commaSplits [] (a ++ ',' :: t)).findSome? fun r => (h r.2).map (r.1, ·)) =
        some (a.reverse, y) := by
    have hnone : ((commaSplits [] a).map fun r => (r.1, r.2 ++ ',' :: t)).findSome?
        (fun r => (h r.2).map (r.1, ·)) = none := by
      rw [List.findSome?_eq_none_iff]
      rintro _ hm
      obtain ⟨r, hr, rfl⟩ := List.mem_map.1 hm
      obtain ⟨b, hb, -⟩ := mem_commaSplits.1 hr
      rw [hw r.2 ⟨b, hb⟩]
      rfl
    rw [commaSplits_append, List.findSome?_append, hnone]
    simp [ht]
  constructor
  · intro hl
    have hne : ∃ u, BehindComma s u ∧ h u ≠ none := by
      by_contra hno
      push Not at hno
      rw [findSome?_commaSplits_eq_none_iff.2 hno] at hl
      cases hl
    obtain ⟨u, hu, hx⟩ := hne
    obtain ⟨b, t, rfl, ht, hw⟩ := exists_first hu hx
    obtain ⟨y, hy⟩ := Option.ne_none_iff_exists'.1 ht
    rw [hfound b t y hy hw] at hl
    cases hl
    exact ⟨t, by simp, hy, by simpa using hw⟩
  · rintro ⟨t, rfl, ht, hw⟩
    simpa using hfound a.reverse t x ht hw

end

/-! ### The parts of the grammar -/

/-- What is assigned to `func` at the start of a text, if that is anything. -/
def code? (s : List Char) : Option (List Char) :=
  (assigned? "func".toList s).filter fun v => !v.isEmpty

theorem code?_eq_some_iff : code? s = some v ↔ assigned? "func".toList s = some v ∧ v ≠ [] := by
  simp [code?, Option.filter_eq_some_iff]

theorem splitFunction?_eq (s : List Char) : splitFunction? s =
    match ((commaSplits [] s).filterMap fun r => (code? r.2).map (r.1, ·)).getLast? with
    | some (leading, value) => some (value, some leading.reverse)
    | none => (code? s).map fun value => (value, none) := by
  have hfilter : (fun r : List Char × List Char => (code? r.2).map (r.1, ·)) =
      fun r => (assignedBehind? "func".toList r).filter fun split => !split.2.isEmpty := by
    funext r
    unfold assignedBehind? code?
    cases h : assigned? "func".toList r.2 with
    | none => rfl
    | some v => by_cases hv : v = [] <;> simp [hv, Option.filter]
  rw [hfilter, ← List.filter_filterMap]
  rfl

/-- The last assignment to `func` behind a comma counts. -/
theorem splitFunction?_eq_some_iff : splitFunction? s = some (v, some a) ↔
    ∃ t, s = a ++ ',' :: t ∧ code? t = some v ∧ ∀ u, BehindComma t u → code? u = none := by
  have := @getLast?_commaSplits_eq_some_iff s a.reverse _ code? v
  rw [List.reverse_reverse] at this
  rw [← this, splitFunction?_eq]
  split
  · next leading value hl =>
    rw [hl]
    simp [List.reverse_eq_iff, and_comm]
  · next hl =>
    rw [hl]
    simp

/-- Without one behind a comma, the assignment to `func` at the start counts. -/
theorem splitFunction?_eq_some_none_iff : splitFunction? s = some (v, none) ↔
    code? s = some v ∧ ∀ u, BehindComma s u → code? u = none := by
  rw [← getLast?_commaSplits_eq_none_iff, splitFunction?_eq]
  split
  · next hl => simp [hl]
  · next hl => simp [hl]

/-- The last assignment to `lang` counts. -/
theorem splitLanguage?_eq_some_iff : splitLanguage? s = some (a, v) ↔
    ∃ t, s = a ++ ',' :: t ∧ assigned? "lang".toList t = some v ∧
      ∀ u, BehindComma t u → assigned? "lang".toList u = none := by
  have := @getLast?_commaSplits_eq_some_iff s a.reverse _ (assigned? "lang".toList) v
  rw [List.reverse_reverse] at this
  rw [← this]
  change (match ((commaSplits [] s).filterMap fun r =>
    (assigned? "lang".toList r.2).map (r.1, ·)).getLast? with
    | some (code, language) => some (code.reverse, language)
    | none => none) = _ ↔ _
  split
  · next leading value hl =>
    rw [hl]
    simp [List.reverse_eq_iff]
  · next hl =>
    rw [hl]
    simp

theorem splitLanguage?_ne_none (hu : BehindComma s u) (h : assigned? "lang".toList u ≠ none) :
    splitLanguage? s ≠ none := by
  obtain ⟨a, t, rfl, ht, hw⟩ := exists_last hu h
  obtain ⟨v, hv⟩ := Option.ne_none_iff_exists'.1 ht
  rw [splitLanguage?_eq_some_iff.2 ⟨t, rfl, hv, hw⟩]
  exact Option.some_ne_none _

/-- The code and the language that an assignment to `code` at the start of a text gives. -/
def codeAndLanguage? (s : List Char) : Option (List Char × List Char) :=
  (assigned? "code".toList s).bind splitLanguage?

theorem splitCodeBlock?_eq (s : List Char) : splitCodeBlock? s =
    match (commaSplits [] s).findSome? fun r => (codeAndLanguage? r.2).map (r.1, ·) with
    | some (leading, code, language) => some (code, language, some leading.reverse)
    | none => (codeAndLanguage? s).map fun r => (r.1, r.2, none) := by
  let found (r : List Char × List Char × List Char) : List Char × List Char × Option (List Char) :=
    (r.2.1, r.2.2, some r.1.reverse)
  have hbehind : (fun r : List Char × List Char =>
      (assignedBehind? "code".toList r).bind fun split => (splitLanguage? split.2).bind
        fun value => some (value.1, value.2, some split.1.reverse)) =
      Option.map found ∘ fun r => (codeAndLanguage? r.2).map (r.1, ·) := by
    funext r
    unfold assignedBehind? codeAndLanguage?
    dsimp only [Function.comp]
    cases assigned? "code".toList r.2 with
    | none => rfl
    | some v =>
      dsimp only [Option.map_some, Option.bind_some]
      cases splitLanguage? v <;> rfl
  have hstart : ((assigned? "code".toList s).bind fun value => (splitLanguage? value).bind
      fun r => some (r.1, r.2, (none : Option (List Char)))) =
      (codeAndLanguage? s).map fun r => (r.1, r.2, none) := by
    unfold codeAndLanguage?
    cases assigned? "code".toList s with
    | none => rfl
    | some v =>
      dsimp only [Option.bind_some]
      cases splitLanguage? v <;> rfl
  rw [← hstart]
  have hor : splitCodeBlock? s = Option.or
      ((commaSplits [] s).findSome? fun r : List Char × List Char =>
        (assignedBehind? "code".toList r).bind fun split => (splitLanguage? split.2).bind
          fun value => some (value.1, value.2, some split.1.reverse))
      ((assigned? "code".toList s).bind fun value => (splitLanguage? value).bind
        fun r => some (r.1, r.2, none)) := by
    unfold splitCodeBlock?
    extract_lets behind
    change _ = Option.or ((commaSplits [] s).findSome? behind) _
    cases (commaSplits [] s).findSome? behind <;> rfl
  rw [hor, hbehind, ← List.map_findSome?]
  cases (commaSplits [] s).findSome? fun r => (codeAndLanguage? r.2).map (r.1, ·) <;> rfl

/-- The first assignment to `code` behind a comma counts that has one to `lang` behind it. -/
theorem splitCodeBlock?_eq_some_iff {language : List Char} :
    splitCodeBlock? s = some (v, language, some a) ↔
      ∃ t, s = a ++ ',' :: t ∧ codeAndLanguage? t = some (v, language) ∧
        ∀ w, BehindComma a w → codeAndLanguage? (w ++ ',' :: t) = none := by
  have := @findSome?_commaSplits_eq_some_iff s a.reverse _ codeAndLanguage? (v, language)
  rw [List.reverse_reverse] at this
  rw [← this, splitCodeBlock?_eq]
  split
  · next leading code language hl =>
    rw [hl]
    simp [List.reverse_eq_iff, and_comm, and_assoc]
  · next hl =>
    rw [hl]
    simp

/-- Without one behind a comma, the assignment to `code` at the start counts. -/
theorem splitCodeBlock?_eq_some_none_iff {language : List Char} :
    splitCodeBlock? s = some (v, language, none) ↔
      codeAndLanguage? s = some (v, language) ∧ ∀ u, BehindComma s u → codeAndLanguage? u = none := by
  rw [← findSome?_commaSplits_eq_none_iff, splitCodeBlock?_eq]
  split
  · next hl => simp [hl]
  · next hl => simp [hl, Prod.ext_iff]

end LiveNotes
