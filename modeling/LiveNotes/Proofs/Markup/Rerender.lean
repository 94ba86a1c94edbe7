import LiveNotes.Proofs.Markup.Segments

/-!
# Rendering a text twice

Rendering what was rendered changes nothing exactly when no span of an older form with a value is left
in it (`render_render_iff`), as long as the values have no markup in them. Both conditions are there for
a reason: the form with `id` is not found across lines, so the span that it becomes can be found only
when a line has gone, and a value with the end of a span in it cuts its own span short
(`render_render_ne`).

* The last pass, done twice, does nothing new (`renewText_renewText`). It is followed through a text
  that need not be in order: spans may be cut short, and labels may look like openings. What carries
  the argument is that the pass only copies where no mark begins (`exists_of_clear_prefix`), so that an
  opening found afterwards was there before (`not_opens_renewText`).
* The passes of the older forms take the ends of older spans away and never write one
  (`olderEnds_renewText`), so whatever they renew makes a difference for good.
-/

namespace LiveNotes

open Text

variable {custom : List String} {context : Context} {form : SpanForm}
  {label body rest s t w : List Char} {c : Char}

/-! ### The values of a pass -/

/-- The values that the pass of a form writes into a text. -/
def formValues (custom : List String) (context : Context) (text : String) (form : SpanForm) :
    List Value :=
  (formQueries text form).filterMap (queryValue? custom context)

/-- The values that passes write, one after the other. -/
def passValues (custom : List String) (context : Context) : List SpanForm → String → List Value
  | [], _ => []
  | form :: forms, text =>
    formValues custom context text form ++
      passValues custom context forms (renewForm custom context text form)

/-- The values that rendering a text writes. -/
def renderValues (custom : List String) (context : Context) (text : String) : List Value :=
  passValues custom context SpanForm.all text

/-- Values without a mark in their texts. -/
def Unmarked (values : List Value) : Prop := ∀ v ∈ values, ¬ spanMark <:+: v.inline.toList

theorem unmarked_nil : Unmarked [] := List.forall_mem_nil _

theorem unmarked_append {as bs : List Value} : Unmarked (as ++ bs) ↔ Unmarked as ∧ Unmarked bs :=
  List.forall_mem_append

theorem formValues_nil : formValues custom context (.ofList []) form = [] := by
  rw [formValues, formQueries_nil]
  rfl

theorem formValues_span (h : IsSpan form label body) (rest : List Char) :
    formValues custom context (.ofList (spanText form label body ++ rest)) form =
      (queryValue? custom context (form.query label)).toList ++
        formValues custom context (.ofList rest) form := by
  rw [formValues, formQueries_span h, List.filterMap_cons, formValues]
  cases queryValue? custom context (form.query label) <;> rfl

theorem formValues_cons (h : ¬ Opens form (c :: s)) :
    formValues custom context (.ofList (c :: s)) form = formValues custom context (.ofList s) form := by
  rw [formValues, formQueries_cons h, formValues]

/-- The values in a span without markup inside. -/
theorem IsPlainSpan.formValues {other : SpanForm} (h : IsPlainSpan other label body) (form : SpanForm) :
    formValues custom context (.ofList (spanText other label body)) form =
      if other = form then (queryValue? custom context (form.query label)).toList else [] := by
  rw [← List.append_nil (spanText other label body), LiveNotes.formValues, h.formQueries,
    formQueries_nil, List.append_nil]
  split
  · cases hv : queryValue? custom context (form.query label) <;> simp [hv]
  · rfl

/-- What a pass writes for a span: the span as it was, or a new one. -/
theorem renewedText_eq (custom : List String) (context : Context) (form : SpanForm)
    (label body : List Char) :
    (queryValue? custom context (form.query label) = none ∧
      renewedText custom context form label body = spanText form label body) ∨
    ∃ v, queryValue? custom context (form.query label) = some v ∧
      renewedText custom context form label body =
        spanText .paired (encodeQuery (form.query label).toList) v.inline.toList := by
  cases hv : queryValue? custom context (form.query label) with
  | none => exact .inl ⟨rfl, by rw [renewedText, hv]⟩
  | some v => exact .inr ⟨v, rfl, renewedText_of_value rfl hv⟩

theorem spanMark_prefix_renewedText (custom : List String) (context : Context) (form : SpanForm)
    (label body rest : List Char) :
    spanMark <+: renewedText custom context form label body ++ rest := by
  rcases renewedText_eq custom context form label body with ⟨-, h⟩ | ⟨v, -, h⟩
  · exact h ▸ spanMark_prefix_spanText _ _ _ _
  · exact h ▸ spanMark_prefix_spanText _ _ _ _

/-- A pass that writes no value changes nothing. -/
theorem renewText_eq_self (h : formValues custom context (.ofList s) form = []) :
    renewText custom context form s = s := by
  induction s using pass_induction form with
  | nil => exact renewText_nil
  | span label body rest hs ih =>
    rw [formValues_span hs, List.append_eq_nil_iff] at h
    have hn : queryValue? custom context (form.query label) = none := by simpa using h.1
    rw [renewText_span hs, ih h.2, renewedText, hn]
  | cons c s hn ih => rw [renewText_cons hn, ih (formValues_cons hn ▸ h)]

/-! ### What a pass copies -/

/-- Where a pass leaves text in which no mark begins, it has copied it. -/
theorem exists_of_clear_prefix (hw : Clear spanMark w) (hp : w <+: renewText custom context form s) :
    ∃ t, s = w ++ t ∧ renewText custom context form s = w ++ renewText custom context form t := by
  induction w generalizing s with
  | nil => exact ⟨s, rfl, rfl⟩
  | cons c w ih =>
    rw [clear_cons] at hw
    induction s using pass_induction form with
    | nil =>
      rw [renewText_nil] at hp
      exact absurd (List.prefix_nil.1 hp) (List.cons_ne_nil c w)
    | span label body rest hs _ =>
      -- what is written for a span starts with a mark
      rw [renewText_span hs] at hp
      have hm := spanMark_prefix_renewedText custom context form label body
        (renewText custom context form rest)
      exact ((List.prefix_or_prefix_of_prefix hm hp).elim hw.1.1 hw.1.2).elim
    | cons d s hn _ =>
      rw [renewText_cons hn] at hp ⊢
      obtain ⟨rfl, hrest⟩ := List.cons_prefix_cons.1 hp
      obtain ⟨t, rfl, ht⟩ := ih hw.2 hrest
      exact ⟨t, rfl, by rw [ht, List.cons_append]⟩

theorem SpanForm.closing_eq_cons (form : SpanForm) :
    ∃ t, form.closing = '<' :: t ∧ Clear spanMark t ∧ Clear SpanForm.reference.closing t := by
  cases form
  · exact ⟨_, rfl, by decide, by decide⟩
  · exact ⟨_, rfl, by decide, by decide⟩
  · exact ⟨_, rfl, by decide, by decide⟩

/-- An end of a span that stands behind a kept character was there before. -/
theorem closing_prefix_cons {other : SpanForm}
    (hp : other.closing <+: c :: renewText custom context form s) : other.closing <+: c :: s := by
  obtain ⟨t, ht, hclear, -⟩ := other.closing_eq_cons
  rw [ht] at hp ⊢
  obtain ⟨rfl, hrest⟩ := List.cons_prefix_cons.1 hp
  obtain ⟨r, rfl, -⟩ := exists_of_clear_prefix hclear hrest
  exact List.cons_prefix_cons.2 ⟨rfl, List.prefix_append t r⟩

theorem closing_infix_spanText (form : SpanForm) (label body rest : List Char) :
    form.closing <:+: spanText form label body ++ rest := by
  rw [spanText]
  exact ⟨_, rest, rfl⟩

/-- A text with an end of a span behind a pass had one before. -/
theorem closing_infix_of_renewText (h : form.closing <:+: renewText custom context form s) :
    form.closing <:+: s := by
  induction s using pass_induction form with
  | nil => rwa [renewText_nil] at h
  | span label body rest hs _ => exact closing_infix_spanText form label body rest
  | cons c s hn ih =>
    rw [renewText_cons hn, List.infix_cons_iff] at h
    rw [List.infix_cons_iff]
    exact h.imp closing_prefix_cons ih

/-! ### The last pass, done twice -/

section CutShort

/-! An attribute that a span stands in ends at the first quote of that span's opening, so it is read
up to there, provided that what follows the quote there is what follows an attribute. -/

variable {inner r : List Char}

theorem paired_middle_eq : ∃ m, SpanForm.paired.middle = '"' :: '>' :: m ∧ Clear spanMark ('>' :: m) :=
  ⟨_, rfl, by decide⟩

theorem attribute_of_spanText (hq : '"' ∉ label)
    (he : spanText .paired inner body ++ t = label ++ (SpanForm.paired.middle ++ r)) :
    SpanForm.paired.opening = label ++ ['"'] ∧
      '"' :: (inner ++ (SpanForm.paired.middle ++ (body ++ (SpanForm.paired.closing ++ t)))) =
        SpanForm.paired.middle ++ r := by
  obtain ⟨o, ho, hqo⟩ : ∃ o, SpanForm.paired.opening = o ++ ['"'] ∧ '"' ∉ o :=
    ⟨"<span query=".toList, by decide, by decide⟩
  obtain ⟨m, hm⟩ := SpanForm.paired.middle_eq_cons
  rw [spanText_append, ho, List.append_assoc, List.singleton_append] at he
  conv_rhs at he => rw [hm, List.cons_append]
  obtain ⟨rfl, hb⟩ := append_cons_inj hqo hq he
  exact ⟨ho, by rw [hb, hm, List.cons_append]⟩

/-- An attribute that ends inside a span does so whatever follows the span. -/
theorem exists_of_spanText_eq (hq : '"' ∉ label)
    (he : spanText .paired inner body ++ t = label ++ (SpanForm.paired.middle ++ r))
    (rest : List Char) :
    ∃ r', spanText .paired inner body ++ rest = label ++ (SpanForm.paired.middle ++ r') ∧
      SpanForm.paired.closing <:+: r' := by
  obtain ⟨ho, hi⟩ := attribute_of_spanText hq he
  have hp : SpanForm.paired.middle <+: '"' :: (inner ++ SpanForm.paired.middle) := by
    refine List.prefix_of_prefix_length_le ⟨r, hi.symm⟩ ?_ ?_
    · rw [← List.append_assoc, ← List.cons_append]
      exact List.prefix_append _ _
    · rw [List.length_cons, List.length_append]
      omega
  obtain ⟨z, hz⟩ := hp
  refine ⟨z ++ (body ++ (SpanForm.paired.closing ++ rest)), ?_, z ++ body, rest, by simp⟩
  rw [spanText_append, ho, ← List.append_assoc _ z, hz]
  simp

/-- No attribute ends inside a new span. -/
theorem spanText_encodeQuery_ne {query : List Char} (hq : '"' ∉ label) (hne : query ≠ []) :
    spanText .paired (encodeQuery query) body ++ t ≠ label ++ (SpanForm.paired.middle ++ r) := by
  intro he
  obtain ⟨-, hi⟩ := attribute_of_spanText hq he
  obtain ⟨m, hm, -⟩ := paired_middle_eq
  obtain ⟨x, l, hl⟩ := List.exists_cons_of_ne_nil (encodeQuery_ne_nil hne)
  conv_rhs at hi => rw [hm]
  rw [hl, List.cons_append, List.cons_append, List.cons_append] at hi
  have hx : '>' ∈ encodeQuery query := by
    rw [hl, (List.cons_eq_cons.1 (List.cons_eq_cons.1 hi).2).1]
    exact List.mem_cons_self
  exact not_mem_encodeQuery (by decide) query hx

end CutShort

/-- An attribute with what stands behind it, and an end of the span further on, was there before the
pass. -/
theorem exists_of_renewText_eq {r : List Char} (hq : '"' ∉ label)
    (he : renewText custom context .paired s = label ++ (SpanForm.paired.middle ++ r))
    (hr : SpanForm.paired.closing <:+: r) :
    ∃ r', s = label ++ (SpanForm.paired.middle ++ r') ∧ SpanForm.paired.closing <:+: r' := by
  obtain ⟨m, hm, hclear⟩ := paired_middle_eq
  induction s using pass_induction .paired generalizing label with
  | nil =>
    rw [renewText_nil, hm] at he
    simp at he
  | span inner body rest hs _ =>
    rw [renewText_span hs] at he
    rcases renewedText_eq custom context .paired inner body with ⟨-, hkept⟩ | ⟨v, -, hfresh⟩
    · exact exists_of_spanText_eq hq (hkept ▸ he) rest
    · rw [hfresh] at he
      exact absurd he (spanText_encodeQuery_ne hq (query_toList_ne_nil .paired hs.label_ne_nil))
  | cons c s hn ih =>
    rw [renewText_cons hn] at he
    cases label with
    | nil =>
      rw [hm, List.nil_append, List.cons_append] at he
      obtain ⟨rfl, hrest⟩ := List.cons_eq_cons.1 he
      obtain ⟨t, rfl, ht⟩ := exists_of_clear_prefix hclear ⟨r, hrest.symm⟩
      rw [ht] at hrest
      have htr := List.append_cancel_left hrest
      exact ⟨t, by rw [hm]; rfl, closing_infix_of_renewText (htr ▸ hr)⟩
    | cons d label =>
      rw [List.cons_append] at he
      obtain ⟨rfl, hrest⟩ := List.cons_eq_cons.1 he
      obtain ⟨r', rfl, hr'⟩ := ih (fun h => hq (List.mem_cons_of_mem _ h)) hrest
      exact ⟨r', rfl, hr'⟩

/-- A character that no span starts with does not start one behind the pass either. -/
theorem not_opens_renewText (h : ¬ Opens .paired (c :: s)) :
    ¬ Opens .paired (c :: renewText custom context .paired s) := by
  rintro ⟨label, body, rest, hs, he⟩
  refine h ?_
  obtain ⟨o, ho, hno⟩ := SpanForm.paired.opening_eq_cons
  have hclear : Clear spanMark o := by
    obtain ⟨m, hm, -⟩ := spanMark_eq_cons
    exact hm ▸ clear_of_not_mem hno
  rw [spanText_append, ho, List.cons_append] at he
  obtain ⟨rfl, hbehind⟩ := List.cons_eq_cons.1 he
  obtain ⟨t, rfl, ht⟩ := exists_of_clear_prefix hclear ⟨_, hbehind.symm⟩
  rw [ht] at hbehind
  obtain ⟨r, rfl, hr⟩ := exists_of_renewText_eq hs.quote_not_mem (List.append_cancel_left hbehind)
    ⟨body, rest, by simp⟩
  -- the value ends where the end of the span stands for the first time
  obtain ⟨value, behind, hc⟩ : ∃ value behind, cut? SpanForm.paired.closing r = some (value, behind) := by
    cases hc : cut? SpanForm.paired.closing r with
    | none => exact absurd hr (cut?_eq_none_iff.1 hc)
    | some p => exact ⟨p.1, p.2, rfl⟩
  have hspan : IsSpan .paired label value :=
    ⟨hs.label_ne_nil, hs.quote_not_mem, not_infix_of_cut? SpanForm.paired.closing_ne_nil hc, nofun⟩
  refine ⟨label, value, behind, hspan, ?_⟩
  rw [spanText_append, ho, cut?_eq_some hc]
  simp

/-- The last pass does nothing new when it is done again. -/
theorem renewText_renewText (hv : Unmarked (formValues custom context (.ofList s) .paired)) :
    renewText custom context .paired (renewText custom context .paired s) =
      renewText custom context .paired s := by
  induction s using pass_induction .paired with
  | nil => rw [renewText_nil, renewText_nil]
  | span label body rest hs ih =>
    rw [formValues_span hs] at hv
    have ih := ih fun v hm => hv v (List.mem_append_right _ hm)
    rw [renewText_span hs]
    rcases renewedText_eq custom context .paired label body with
      ⟨-, he⟩ | ⟨v, hval, he⟩
    · conv_lhs => rw [he, renewText_span hs, ih]
    · -- the new span has the same query, so it is written again
      have hfresh : IsSpan .paired (encodeQuery (SpanForm.paired.query label).toList) v.inline.toList :=
        isSpan_encodeQuery (query_toList_ne_nil .paired hs.label_ne_nil)
          (hv v (List.mem_append_left _ (by simp [hval])))
      have hagain : renewedText custom context .paired (encodeQuery (SpanForm.paired.query label).toList)
          v.inline.toList = renewedText custom context .paired label body := by
        rw [renewedText, query_encodeQuery, renewedText, hval]
      conv_lhs => rw [he, renewText_span hfresh, ih, hagain]
  | cons c s hn ih =>
    rw [renewText_cons hn, renewText_cons (not_opens_renewText hn), ih (formValues_cons hn ▸ hv)]

/-! ### The ends of older spans -/

/-- The number of places where a span of an older form can end. -/
def olderEnds (s : List Char) : Nat := s.tails.countP (SpanForm.reference.closing.isPrefixOf ·)

theorem olderEnds_nil : olderEnds [] = 0 := by decide

theorem olderEnds_cons (c : Char) (s : List Char) :
    olderEnds (c :: s) =
      olderEnds s + if SpanForm.reference.closing <+: c :: s then 1 else 0 := by
  rw [olderEnds, List.tails, List.countP_cons, olderEnds]
  simp

theorem olderEnds_append_of_clear (h : Clear SpanForm.reference.closing w) (s : List Char) :
    olderEnds (w ++ s) = olderEnds s := by
  induction w with
  | nil => rfl
  | cons c w ih =>
    rw [clear_cons] at h
    rw [List.cons_append, olderEnds_cons, ih h.2,
      if_neg (List.cons_append ▸ h.1.not_prefix_append s), Nat.add_zero]

theorem olderEnds_append_of_not_mem (h : '<' ∉ w) (s : List Char) :
    olderEnds (w ++ s) = olderEnds s := by
  obtain ⟨t, ht, -⟩ := SpanForm.reference.closing_eq_cons
  exact olderEnds_append_of_clear (ht ▸ clear_of_not_mem h) s

/-- Text without markup in front of markup has no end in it. -/
theorem olderEnds_append_of_plain (h : ¬ spanMark <:+: w) (hr : ∀ c, rest.head? = some c → c = '<') :
    olderEnds (w ++ rest) = olderEnds rest := by
  induction w with
  | nil => rfl
  | cons c w ih =>
    rw [List.infix_cons_iff, not_or] at h
    have hn : ¬ SpanForm.reference.closing <+: c :: (w ++ rest) := fun hp =>
      not_mark_append h.1 (List.cons_ne_nil c w) hr
        (SpanForm.reference.spanMark_prefix_closing.trans hp)
    rw [List.cons_append, olderEnds_cons, ih h.2, if_neg hn, Nat.add_zero]

/-- No older span ends in a new one. -/
theorem olderEnds_encodeQuery {query : List Char} (hv : ¬ spanMark <:+: body) (rest : List Char) :
    olderEnds (spanText .paired (encodeQuery query) body ++ rest) = olderEnds rest := by
  have hr := head_of_mark (SpanForm.paired.spanMark_prefix_closing.trans (List.prefix_append _ rest))
  rw [spanText_append, olderEnds_append_of_clear (by decide),
    olderEnds_append_of_not_mem (not_mem_encodeQuery (by decide) query),
    olderEnds_append_of_clear (by decide), olderEnds_append_of_plain hv hr,
    olderEnds_append_of_clear (by decide)]

/-- The ends in a span are those up to its closing, whatever follows. -/
theorem olderEnds_append_closing (form : SpanForm) (w rest : List Char) :
    olderEnds (w ++ form.closing ++ rest) = olderEnds (w ++ form.closing) + olderEnds rest := by
  have hlen : SpanForm.reference.closing.length ≤ form.closing.length := by cases form <;> decide
  have hiff : ∀ t, SpanForm.reference.closing <+: t ++ form.closing ++ rest ↔
      SpanForm.reference.closing <+: t ++ form.closing := by
    intro t
    refine ⟨fun hp => List.prefix_of_prefix_length_le hp (List.prefix_append _ _) ?_, fun hp =>
      hp.trans (List.prefix_append _ _)⟩
    rw [List.length_append]
    omega
  induction w with
  | nil =>
    -- behind the first character of the closing no other end begins
    obtain ⟨t, ht, -, hclear⟩ := form.closing_eq_cons
    have hi := hiff []
    have ht0 := olderEnds_append_of_clear hclear []
    rw [List.append_nil] at ht0
    rw [List.nil_append, ht, List.cons_append] at hi
    rw [List.nil_append, ht, List.cons_append, olderEnds_cons, olderEnds_cons,
      olderEnds_append_of_clear hclear, ht0, olderEnds_nil, if_congr hi rfl rfl]
    omega
  | cons c w ih =>
    have hi := hiff (c :: w)
    rw [List.cons_append, List.cons_append] at hi ⊢
    rw [olderEnds_cons, olderEnds_cons, ih, if_congr hi rfl rfl]
    omega

theorem olderEnds_spanText (form : SpanForm) (label body rest : List Char) :
    olderEnds (spanText form label body ++ rest) =
      olderEnds (spanText form label body) + olderEnds rest :=
  olderEnds_append_closing form _ rest

theorem olderEnds_le_append (w s : List Char) : olderEnds s ≤ olderEnds (w ++ s) := by
  induction w with
  | nil => exact Nat.le_refl _
  | cons c w ih =>
    rw [List.cons_append, olderEnds_cons]
    omega

/-- A pass writes no end of an older span, and takes one away with every older span that it renews. -/
theorem olderEnds_renewText (hv : Unmarked (formValues custom context (.ofList s) form)) :
    olderEnds (renewText custom context form s) +
      (formValues custom context (.ofList s) form).length * olderEnds form.closing ≤ olderEnds s := by
  induction s using pass_induction form with
  | nil => rw [renewText_nil, formValues_nil, List.length_nil, Nat.zero_mul, Nat.add_zero]
  | span label body rest hs ih =>
    rw [formValues_span hs] at hv
    have ih := ih fun v hm => hv v (List.mem_append_right _ hm)
    rw [renewText_span hs, formValues_span hs, olderEnds_spanText, List.length_append, Nat.add_mul]
    rcases renewedText_eq custom context form label body with ⟨hval, he⟩ | ⟨v, hval, he⟩
    · rw [he, olderEnds_spanText, hval, Option.toList_none, List.length_nil]
      omega
    · have hplain := hv v (List.mem_append_left _ (by simp [hval]))
      have hend : olderEnds form.closing ≤ olderEnds (spanText form label body) :=
        olderEnds_le_append _ _
      rw [he, olderEnds_encodeQuery hplain, hval, Option.toList_some, List.length_singleton]
      omega
  | cons c s hn ih =>
    rw [formValues_cons hn] at hv ⊢
    have ih := ih hv
    rw [renewText_cons hn, olderEnds_cons, olderEnds_cons]
    by_cases hp : SpanForm.reference.closing <+: c :: renewText custom context form s
    · rw [if_pos hp, if_pos (closing_prefix_cons hp)]
      omega
    · rw [if_neg hp]
      omega

/-! ### Rendering twice -/

/-- The values of a rendering are those of its three passes. -/
theorem unmarked_renderValues_iff :
    Unmarked (renderValues custom context (.ofList s)) ↔
      Unmarked (formValues custom context (.ofList s) .reference) ∧
      Unmarked (formValues custom context (.ofList (renewText custom context .reference s))
        .selfClosing) ∧
      Unmarked (formValues custom context (.ofList (renewText custom context .selfClosing
        (renewText custom context .reference s))) .paired) := by
  simp only [renderValues, SpanForm.all, passValues, renewForm_ofList, List.append_nil, unmarked_append]

/-- A text that the last pass leaves as it is, rendering leaves as it is exactly when it has no span of
an older form with a value. -/
theorem render_eq_self_iff (hs : renewText custom context .paired s = s)
    (hv : Unmarked (renderValues custom context (.ofList s))) :
    render custom context (.ofList s) = .ofList s ↔
      ∀ form, form ≠ .paired → formValues custom context (.ofList s) form = [] := by
  obtain ⟨href, hself, hpaired⟩ := unmarked_renderValues_iff.1 hv
  rw [render_ofList, String.ofList_inj]
  constructor
  · intro h
    have href := olderEnds_renewText href
    have hself := olderEnds_renewText hself
    have hpaired := olderEnds_renewText hpaired
    have hone : olderEnds SpanForm.reference.closing = 1 ∧ olderEnds SpanForm.selfClosing.closing = 1 := by
      decide
    rw [hone.1] at href
    rw [hone.2] at hself
    rw [h] at hpaired
    -- all ends are still there, so no pass took one away
    have hnone : formValues custom context (.ofList s) .reference = [] :=
      List.length_eq_zero_iff.1 (by omega)
    rw [renewText_eq_self hnone] at hself hpaired
    intro form hne
    cases form with
    | reference => exact hnone
    | selfClosing => exact List.length_eq_zero_iff.1 (by omega)
    | paired => exact absurd rfl hne
  · intro h
    rw [renewText_eq_self (h .reference nofun), renewText_eq_self (h .selfClosing nofun), hs]

/-- Rendering what was rendered changes nothing exactly when no span of an older form with a value is
left in it, provided that no value computed on the way has a mark in its text. -/
theorem render_render_iff {text : String}
    (hv : Unmarked (renderValues custom context text ++
      renderValues custom context (render custom context text))) :
    render custom context (render custom context text) = render custom context text ↔
      ∀ form, form ≠ .paired → formValues custom context (render custom context text) form = [] := by
  obtain ⟨s, rfl⟩ : ∃ s, text = .ofList s := ⟨text.toList, String.ofList_toList.symm⟩
  obtain ⟨hfirst, hagain⟩ := unmarked_append.1 hv
  rw [render_ofList] at hagain ⊢
  exact render_eq_self_iff (renewText_renewText (unmarked_renderValues_iff.1 hfirst).2.2) hagain

/-- A note with a property that has the end of a span in it. -/
def endNote : Context :=
  ⟨"n.md", [("n.md", .document [("a", .string "<span type=\"end\"></span>")])], [], 0⟩

/-- A text with a span of an older form, which becomes one of today. -/
def olderText : List Char := spanText .selfClosing "get()".toList ['\n']

theorem render_render_iff_olderText :
    Unmarked (renderValues [] endNote (.ofList olderText) ++
      renderValues [] endNote (render [] endNote (.ofList olderText))) ∧
    render [] endNote (render [] endNote (.ofList olderText)) =
      render [] endNote (.ofList olderText) := by
  have hold : IsPlainSpan .selfClosing "get()".toList ['\n'] := by constructor <;> decide
  have hnew : IsPlainSpan .paired "get()".toList [] := by constructor <;> decide
  have hquery : SpanForm.selfClosing.query "get()".toList = "get()" ∧
      SpanForm.paired.query "get()".toList = "get()" := ⟨by cbv, by cbv⟩
  have hval : queryValue? [] endNote "get()" = some (.string "") := by cbv
  have henc : encodeQuery "get()".toList = "get()".toList := by decide
  have hempty : Unmarked (Option.toList (some (Value.string ""))) := by
    intro v hv
    cases List.mem_singleton.1 hv
    decide
  have hfirst : renewText [] endNote .reference olderText = olderText :=
    renewText_eq_of_passes (hold.passes (by decide) [])
  have hsecond : renewText [] endNote .selfClosing olderText = spanText .paired "get()".toList [] := by
    rw [olderText, renewText_spanText hold.isSpan, renewedText_of_value hquery.1 hval, henc]
    rfl
  have hkept : ∀ form, renewText [] endNote form (spanText .paired "get()".toList []) =
      spanText .paired "get()".toList [] := by
    intro form
    by_cases he : SpanForm.paired = form
    · rw [← he, renewText_spanText hnew.isSpan, renewedText_of_value hquery.2 hval, henc]
      rfl
    · exact renewText_eq_of_passes (hnew.passes he [])
  have hrender : render [] endNote (.ofList olderText) = .ofList (spanText .paired "get()".toList []) := by
    rw [render_ofList, hfirst, hsecond, hkept]
  have hv : Unmarked (renderValues [] endNote (.ofList olderText) ++
      renderValues [] endNote (render [] endNote (.ofList olderText))) := by
    rw [hrender, unmarked_append, unmarked_renderValues_iff, unmarked_renderValues_iff, hfirst, hsecond,
      hkept, hkept, hnew.formValues, hnew.formValues, hnew.formValues, olderText, hold.formValues,
      hold.formValues, if_neg (by decide), if_pos rfl, if_pos rfl, if_neg (by decide),
      if_neg (by decide), hquery.1, hquery.2, hval]
    exact ⟨⟨unmarked_nil, hempty, hempty⟩, unmarked_nil, unmarked_nil, hempty⟩
  refine ⟨hv, (render_render_iff hv).2 fun form hne => ?_⟩
  rw [hrender, hnew.formValues, if_neg hne.symm]

/-! ### Two texts that change again

Each breaks one of the conditions of `render_render_iff`: in the first a span of an older form with a value
is left, in the second a value has the end of a span in it.
-/

/-- A span with an `id` around a span of today, whose value is given. -/
def nestedSpans (value : List Char) : List Char :=
  spanText .reference [' '] (spanText .paired "get()".toList value)

/-- A span with the property as its value, if it had none, and `n` more ends behind it. -/
def spanWithEnds (n : Nat) : List Char :=
  spanText .paired "get(a)".toList [] ++ (List.replicate n SpanForm.paired.closing).flatten

/-- The outer span is not found across two lines, and the inner one loses its line break. -/
theorem render_nestedSpans :
    render [] endNote (.ofList (nestedSpans ['\n'])) = .ofList (nestedSpans []) := by
  have hin : IsPlainSpan .paired "get()".toList ['\n'] := by constructor <;> decide
  have hquery : SpanForm.paired.query "get()".toList = "get()" := by cbv
  have hval : queryValue? [] endNote "get()" = some (.string "") := by cbv
  have henc : encodeQuery "get()".toList = "get()".toList := by decide
  have hn : ∀ form, ¬ Opens form (nestedSpans ['\n'] ++ []) := by
    intro form
    refine span?_eq_none_iff.1 (Option.isNone_iff_eq_none.1 ?_)
    cases form <;> decide
  have hold : ∀ form, SpanForm.paired ≠ form →
      renewText [] endNote form (nestedSpans ['\n']) = nestedSpans ['\n'] := fun form hne =>
    renewText_eq_of_passes (passes_spanText (hn form) (by decide) (hin.passes hne _))
  have hlast : renewText [] endNote .paired (nestedSpans ['\n']) = nestedSpans [] := by
    have he : nestedSpans ['\n'] = SpanForm.reference.opening ++ [' '] ++ SpanForm.reference.middle ++
        (spanText .paired "get()".toList ['\n'] ++ (SpanForm.reference.closing ++ [])) := by decide
    rw [he, renewText_append (passes_head (hn .paired) (by decide)), renewText_span hin.isSpan,
      renewText_append (passes_closing _ _), renewText_nil, renewedText_of_value hquery hval, henc]
    decide
  rw [render_ofList, hold .reference (by decide), hold .selfClosing (by decide), hlast]

/-- On one line the outer span is found. -/
theorem render_nestedSpans_nil :
    render [] endNote (.ofList (nestedSpans [])) = .ofList (spanText .paired "get( )".toList []) := by
  have hspan : IsSpan .reference [' '] (spanText .paired "get()".toList []) := by constructor <;> decide
  have hout : IsPlainSpan .paired "get( )".toList [] := by constructor <;> decide
  have hquery : SpanForm.reference.query [' '] = "get( )" ∧
      SpanForm.paired.query "get( )".toList = "get( )" := ⟨rfl, by cbv⟩
  have hval : queryValue? [] endNote "get( )" = some (.string "") := by cbv
  have henc : encodeQuery "get( )".toList = "get( )".toList := by decide
  have hfirst : renewText [] endNote .reference (nestedSpans []) = spanText .paired "get( )".toList [] := by
    rw [nestedSpans, renewText_spanText hspan, renewedText_of_value hquery.1 hval, henc]
    rfl
  have hlast : renewText [] endNote .paired (spanText .paired "get( )".toList []) =
      spanText .paired "get( )".toList [] := by
    rw [renewText_spanText hout.isSpan, renewedText_of_value hquery.2 hval, henc]
    rfl
  rw [render_ofList, hfirst, renewText_eq_of_passes (hout.passes (by decide) []), hlast]

/-- The end in the value ends the span, so every rendering leaves one end more. -/
theorem render_spanWithEnds (n : Nat) :
    render [] endNote (.ofList (spanWithEnds n)) = .ofList (spanWithEnds (n + 1)) := by
  have hin : IsPlainSpan .paired "get(a)".toList [] := by constructor <;> decide
  have hquery : SpanForm.paired.query "get(a)".toList = "get(a)" := by cbv
  have hval : queryValue? [] endNote "get(a)" = some (.string "<span type=\"end\"></span>") := by
    have hq : parseQuery [] "get(a)" = .ok ⟨.get, ["a"]⟩ :=
      parseQuery_eq_ok_iff.2 ⟨"get".toList, "a".toList, .get, ["a"], by cbv, by cbv, by cbv, rfl⟩
    rw [queryValue?, hq]
    cbv
  have henc : encodeQuery "get(a)".toList = "get(a)".toList := by decide
  have hends : ∀ form, Passes form (List.replicate n SpanForm.paired.closing).flatten [] := by
    intro form
    induction n with
    | zero => exact passes_nil
    | succ n ih =>
      rw [List.replicate_succ, List.flatten_cons]
      exact (passes_closing .paired _).append ih
  have hold : ∀ form, SpanForm.paired ≠ form →
      renewText [] endNote form (spanWithEnds n) = spanWithEnds n := fun form hne =>
    renewText_eq_of_passes ((hin.passes hne _).append (hends form))
  have hlast : renewText [] endNote .paired (spanWithEnds n) = spanWithEnds (n + 1) := by
    rw [spanWithEnds, renewText_span hin.isSpan, renewText_eq_of_passes (hends .paired),
      renewedText_of_value hquery hval, henc, spanWithEnds, List.replicate_succ, List.flatten_cons,
      ← List.append_assoc]
    rfl
  rw [render_ofList, hold .reference (by decide), hold .selfClosing (by decide), hlast]

/-- Rendering twice is not always the same as rendering once. -/
theorem render_render_ne :
    render [] endNote (render [] endNote (.ofList (nestedSpans ['\n']))) ≠
      render [] endNote (.ofList (nestedSpans ['\n'])) ∧
    render [] endNote (render [] endNote (.ofList (spanWithEnds 0))) ≠
      render [] endNote (.ofList (spanWithEnds 0)) := by
  rw [render_nestedSpans, render_nestedSpans_nil, render_spanWithEnds, render_spanWithEnds, ne_eq,
    String.ofList_inj, ne_eq, String.ofList_inj]
  decide

end LiveNotes
