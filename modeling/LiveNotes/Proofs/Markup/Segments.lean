import Mathlib.Data.List.Chain
import LiveNotes.Proofs.Markup.Spans
import LiveNotes.Proofs.Query.RoundTrip

/-!
# What rendering does to a document

A document is put together from segments, plain text and spans of any form, in any order. Rendering it
renews the spans that have a value and keeps everything else (`render_segments`).

Each of the three passes is followed segment by segment (`renewText_segments`): it finds a span of its
form where that starts, and passes over plain text and the spans of other forms without finding
anything, because nothing in them looks like the opening that it searches for. What a pass writes is
again a span with the same query, so the passes come together by the same lemma.
-/

namespace LiveNotes

open Text

variable {custom : List String} {context : Context} {form : SpanForm}
  {label body rest s t w : List Char} {c : Char}

/-! ### Text that a search passes over -/

/-- No span of a form is found that starts in `w`, where `rest` stands behind it. -/
def Passes (form : SpanForm) (w rest : List Char) : Prop :=
  ∀ u, u <:+ w → u ≠ [] → ¬ Opens form (u ++ rest)

theorem passes_nil : Passes form [] rest := fun _ hu hne => absurd (List.suffix_nil.1 hu) hne

theorem passes_cons :
    Passes form (c :: w) rest ↔ ¬ Opens form (c :: (w ++ rest)) ∧ Passes form w rest := by
  constructor
  · exact fun h => ⟨h _ List.suffix_rfl (List.cons_ne_nil c w),
      fun u hu => h u (hu.trans (List.suffix_cons c w))⟩
  · rintro ⟨hc, hw⟩ u hu hne
    rcases List.suffix_cons_iff.1 hu with rfl | hu
    · exact hc
    · exact hw u hu hne

theorem Passes.append (hw : Passes form w (t ++ rest)) (ht : Passes form t rest) :
    Passes form (w ++ t) rest := by
  induction w with
  | nil => exact ht
  | cons c w ih =>
    rw [passes_cons] at hw
    rw [List.cons_append, passes_cons, List.append_assoc]
    exact ⟨hw.1, ih hw.2⟩

/-- A pass leaves alone what its search passes over. -/
theorem renewText_append (h : Passes form w rest) :
    renewText custom context form (w ++ rest) = w ++ renewText custom context form rest := by
  induction w with
  | nil => rfl
  | cons c w ih =>
    rw [passes_cons] at h
    rw [List.cons_append, renewText_cons h.1, ih h.2, List.cons_append]

/-- Nothing is found in what a search passes over. -/
theorem formQueries_append (h : Passes form w rest) :
    formQueries (.ofList (w ++ rest)) form = formQueries (.ofList rest) form := by
  induction w with
  | nil => rfl
  | cons c w ih =>
    rw [passes_cons] at h
    rw [List.cons_append, formQueries_cons h.1, ih h.2]

theorem renewText_eq_of_passes (h : Passes form s []) : renewText custom context form s = s := by
  have he : renewText custom context form (s ++ []) = s ++ renewText custom context form [] :=
    renewText_append h
  simpa using he

theorem spanMark_eq_cons : ∃ t, spanMark = '<' :: t ∧ '<' ∉ t := ⟨_, rfl, by decide⟩

theorem SpanForm.opening_eq_cons (form : SpanForm) : ∃ t, form.opening = '<' :: t ∧ '<' ∉ t := by
  cases form
  · exact ⟨_, rfl, by decide⟩
  · exact ⟨_, rfl, by decide⟩
  · exact ⟨_, rfl, by decide⟩

theorem opening_prefix_of_opens (h : Opens form s) : form.opening <+: s := by
  obtain ⟨label, body, rest, -, rfl⟩ := h
  exact spanText_append form label body rest ▸ List.prefix_append _ _

theorem passes_of_clear (h : Clear form.opening w) (rest : List Char) : Passes form w rest := by
  induction w with
  | nil => exact passes_nil
  | cons c w ih =>
    rw [clear_cons] at h
    exact passes_cons.2 ⟨fun ho => h.1.not_prefix_append rest (opening_prefix_of_opens ho), ih h.2⟩

theorem passes_of_not_mem (h : '<' ∉ w) (rest : List Char) : Passes form w rest := by
  obtain ⟨a, ha, -⟩ := form.opening_eq_cons
  exact passes_of_clear (ha ▸ clear_of_not_mem h) rest

/-- No mark begins in a text without marks that the end or a `<` follows. -/
theorem not_mark_append (h : ¬ spanMark <+: w) (hw : w ≠ []) (hr : ∀ c, rest.head? = some c → c = '<') :
    ¬ spanMark <+: w ++ rest := by
  obtain ⟨c, w, rfl⟩ := List.exists_cons_of_ne_nil hw
  obtain ⟨m, hm, hlt⟩ := spanMark_eq_cons
  rw [hm] at h ⊢
  rw [List.cons_append, List.cons_prefix_cons]
  rintro ⟨rfl, hp⟩
  exact h (List.cons_prefix_cons.2 ⟨rfl, prefix_of_prefix_append hp fun c hc => hr c hc ▸ hlt⟩)

/-- Text without markup is passed over, at the end of a document and in front of a span. -/
theorem passes_of_plain (h : ¬ spanMark <:+: w) (hr : ∀ c, rest.head? = some c → c = '<') :
    Passes form w rest := by
  induction w with
  | nil => exact passes_nil
  | cons c w ih =>
    rw [List.infix_cons_iff, not_or] at h
    refine passes_cons.2 ⟨fun ho => ?_, ih h.2⟩
    exact not_mark_append h.1 (List.cons_ne_nil c w) hr
      (form.spanMark_prefix_opening.trans (opening_prefix_of_opens ho))

theorem head_of_mark (h : spanMark <+: s) (c : Char) (hc : s.head? = some c) : c = '<' := by
  obtain ⟨m, hm, -⟩ := spanMark_eq_cons
  obtain ⟨t, rfl⟩ := h
  rw [hm] at hc
  simpa using hc.symm

/-! ### Spans of other forms -/

theorem passes_middle (other : SpanForm) (rest : List Char) : Passes form other.middle rest :=
  passes_of_clear (by cases form <;> cases other <;> decide) rest

theorem passes_closing (other : SpanForm) (rest : List Char) : Passes form other.closing rest :=
  passes_of_clear (by cases form <;> cases other <;> decide) rest

/-- Where a span is not found, the search goes on in its value. -/
theorem passes_head {other : SpanForm} (hn : ¬ Opens form (spanText other label body ++ rest))
    (hl : '<' ∉ label) :
    Passes form (other.opening ++ label ++ other.middle) (body ++ (other.closing ++ rest)) := by
  obtain ⟨o, ho, hmo⟩ := other.opening_eq_cons
  have hopening : Passes form other.opening
      (label ++ (other.middle ++ (body ++ (other.closing ++ rest)))) := by
    rw [spanText_append] at hn
    rw [ho] at hn ⊢
    exact passes_cons.2 ⟨hn, passes_of_not_mem hmo _⟩
  exact (hopening.append (passes_of_not_mem hl _)).append (passes_middle other _)

/-- A span that is not found is passed over if its value is. -/
theorem passes_spanText {other : SpanForm} (hn : ¬ Opens form (spanText other label body ++ rest))
    (hl : '<' ∉ label) (hb : Passes form body (other.closing ++ rest)) :
    Passes form (spanText other label body) rest :=
  ((passes_head hn hl).append hb).append (passes_closing other rest)

/-- A span is of no other form: the openings differ, or what follows the same attribute does. -/
theorem eq_of_opens {other : SpanForm} (hq : '"' ∉ label)
    (h : Opens form (spanText other label body ++ rest)) : other = form := by
  obtain ⟨label', body', rest', hs, he⟩ := h
  rw [spanText_append, spanText_append] at he
  have hd : ∀ f g : SpanForm, f ≠ g → Differ g.opening f.opening ∨
      f.opening = g.opening ∧ Differ g.middle f.middle := by
    intro f g
    cases f <;> cases g <;> decide
  by_contra hne
  rcases hd other form hne with ho | ⟨ho, hm⟩
  · exact ho.not_prefix_append _ ⟨_, he.symm⟩
  · rw [ho] at he
    have he := List.append_cancel_left he
    obtain ⟨a, ha⟩ := other.middle_eq_cons
    obtain ⟨b, hb⟩ := form.middle_eq_cons
    rw [ha, hb] at hm
    rw [ha, hb, List.cons_append, List.cons_append] at he
    have hab := (append_cons_inj hq hs.quote_not_mem he).2
    refine hm.not_prefix_append (body ++ (other.closing ++ rest)) ?_
    rw [List.cons_append, hab, ← List.cons_append]
    exact List.prefix_append _ _

/-! ### Segments -/

/-- A part of a document: plain text, or a span. -/
inductive Segment where
  | plain (s : List Char)
  | span (form : SpanForm) (label body : List Char)

/-- A span without markup inside: its attribute is not empty and has neither a double quote nor a `<`,
its value has no mark, and only one line where its form needs that. -/
structure IsPlainSpan (form : SpanForm) (label body : List Char) : Prop where
  label_ne_nil : label ≠ []
  quote_not_mem : '"' ∉ label
  mark_not_mem : '<' ∉ label
  body_plain : ¬ spanMark <:+: body
  one_line : form = .reference → '\n' ∉ body

namespace Segment

/-- Whether a segment is plain text. -/
def isPlain : Segment → Bool
  | plain _ => true
  | span .. => false

/-- A segment as it stands in a document. -/
def text : Segment → List Char
  | plain s => s
  | span form label body => spanText form label body

/-- The value of the query of a span. -/
def value? (custom : List String) (context : Context) : Segment → Option Value
  | plain _ => none
  | span form label _ => queryValue? custom context (form.query label)

/-- A segment as it is to be rendered: a span that has a value is written anew with that value, and
everything else stays. -/
def rendered (custom : List String) (context : Context) : Segment → List Char
  | plain s => s
  | span form label body =>
    match queryValue? custom context (form.query label) with
    | some v => (LiveNotes.span (form.query label) v).toList
    | none => spanText form label body

/-- A segment behind the pass of one form. -/
def renew (custom : List String) (context : Context) (form : SpanForm) : Segment → Segment
  | plain s => plain s
  | span other label body =>
    if other = form then
      match queryValue? custom context (other.query label) with
      | some v => span .paired (encodeQuery (other.query label).toList) v.inline.toList
      | none => span other label body
    else span other label body

end Segment

/-- Segments that make up a document: every span is one without markup inside, and plain text has no
mark in it. Plain segments side by side are one text, `<sp` and `an` together would be a mark. -/
structure IsDocument (segments : List Segment) : Prop where
  plain : ∀ run : List (List Char), run.map Segment.plain <:+: segments → ¬ spanMark <:+: run.flatten
  span : ∀ form label body, Segment.span form label body ∈ segments → IsPlainSpan form label body

/-- No value of a span of the document has a mark in its text. -/
def PlainValues (custom : List String) (context : Context) (segments : List Segment) : Prop :=
  ∀ segment ∈ segments, ∀ v, segment.value? custom context = some v → ¬ spanMark <:+: v.inline.toList

variable {segments : List Segment}

theorem IsPlainSpan.isSpan (h : IsPlainSpan form label body) : IsSpan form label body where
  label_ne_nil := h.label_ne_nil
  quote_not_mem := h.quote_not_mem
  not_closing hc := h.body_plain (form.spanMark_prefix_closing.isInfix.trans hc)
  one_line hl := h.one_line (by cases form <;> first | rfl | cases hl)

/-- A span without markup inside is passed over where another form is looked for. -/
theorem IsPlainSpan.passes {other : SpanForm} (h : IsPlainSpan other label body) (hne : other ≠ form)
    (rest : List Char) : Passes form (spanText other label body) rest :=
  passes_spanText (fun ho => hne (eq_of_opens h.quote_not_mem ho)) h.mark_not_mem
    (passes_of_plain h.body_plain
      (head_of_mark (other.spanMark_prefix_closing.trans (List.prefix_append _ rest))))

/-- A pass takes a span without markup inside to the renewed segment. -/
theorem IsPlainSpan.renewText {other : SpanForm} (h : IsPlainSpan other label body) (rest : List Char) :
    renewText custom context form (spanText other label body ++ rest) =
      ((Segment.span other label body).renew custom context form).text ++
        renewText custom context form rest := by
  by_cases he : other = form
  · subst he
    rw [renewText_span h.isSpan, renewedText, Segment.renew, if_pos rfl]
    cases queryValue? custom context (other.query label) with
    | none => rfl
    | some v =>
      dsimp only
      rw [span_toList, Segment.text]
  · rw [renewText_append (h.passes he rest), Segment.renew, if_neg he, Segment.text]

/-- A span without markup inside is found by the search for its own form, and by no other. -/
theorem IsPlainSpan.formQueries {other : SpanForm} (h : IsPlainSpan other label body)
    (form : SpanForm) (rest : List Char) :
    formQueries (.ofList (spanText other label body ++ rest)) form =
      (if other = form then [form.query label] else []) ++ formQueries (.ofList rest) form := by
  by_cases he : other = form
  · subst he
    rw [formQueries_span h.isSpan, if_pos rfl]
    rfl
  · rw [formQueries_append (h.passes he rest), if_neg he]
    rfl

/-- Where no two plain segments stand side by side, it is enough that none of them has a mark. -/
theorem IsDocument.of_isChain (hc : segments.IsChain fun a b => ¬ (a.isPlain ∧ b.isPlain))
    (hp : ∀ s, .plain s ∈ segments → ¬ spanMark <:+: s)
    (hs : ∀ form label body, .span form label body ∈ segments → IsPlainSpan form label body) :
    IsDocument segments where
  plain run hr := by
    match run with
    | [] => decide
    | [s] => simpa using hp s (hr.subset List.mem_cons_self)
    | s :: t :: run =>
      have hst := hc.infix hr
      simp [Segment.isPlain] at hst
  span := hs

theorem IsDocument.of_infix {part : List Segment} (h : IsDocument segments) (hp : part <:+: segments) :
    IsDocument part where
  plain run hr := h.plain run (hr.trans hp)
  span form label body hm := h.span form label body (hp.subset hm)

/-- A pass takes the text of segments to that of the renewed ones, behind plain text too. -/
theorem renewText_run (run : List (List Char)) (h : IsDocument (run.map Segment.plain ++ segments)) :
    renewText custom context form (run.flatten ++ segments.flatMap Segment.text) =
      run.flatten ++ (segments.map (Segment.renew custom context form)).flatMap Segment.text := by
  have hrun := h.plain run (List.prefix_append _ _).isInfix
  induction segments generalizing run with
  | nil => simpa using renewText_eq_of_passes (passes_of_plain hrun nofun)
  | cons segment segments ih =>
    cases segment with
    | plain s =>
      have h' : IsDocument ((run ++ [s]).map Segment.plain ++ segments) := by simpa using h
      have := ih (run ++ [s]) h' (h'.plain _ (List.prefix_append _ _).isInfix)
      simpa [Segment.renew, Segment.text] using this
    | span other label body =>
      have hs := h.span other label body (by simp)
      have ht : IsDocument segments :=
        h.of_infix ⟨run.map Segment.plain ++ [.span other label body], [], by simp⟩
      have hr := head_of_mark (spanMark_prefix_spanText other label body (segments.flatMap Segment.text))
      have htail := ih [] ht (ht.plain [] List.nil_infix)
      rw [List.flatten_nil, List.nil_append, List.nil_append] at htail
      rw [List.flatMap_cons, Segment.text, renewText_append (passes_of_plain hrun hr), hs.renewText,
        htail, List.map_cons, List.flatMap_cons]

/-- A pass takes a document to that of the renewed segments. -/
theorem renewText_segments (h : IsDocument segments) :
    renewText custom context form (segments.flatMap Segment.text) =
      (segments.map (Segment.renew custom context form)).flatMap Segment.text :=
  renewText_run [] h

/-! ### Renewed segments -/

/-- A renewed span has the same query, so the same value. -/
theorem Segment.value?_renew (segment : Segment) :
    (segment.renew custom context form).value? custom context = segment.value? custom context := by
  cases segment with
  | plain s => rfl
  | span other label body =>
    rw [Segment.renew]
    split
    · next he =>
      cases hv : queryValue? custom context (other.query label) with
      | none => rfl
      | some v => simp [Segment.value?, query_encodeQuery]
    · rfl

theorem Segment.renew_eq_plain {segment : Segment} (h : segment.renew custom context form = .plain s) :
    segment = .plain s := by
  cases segment with
  | plain t => exact h
  | span other label body =>
    rw [Segment.renew] at h
    split at h
    · split at h <;> cases h
    · cases h

/-- A renewed span has no markup inside either. -/
theorem IsPlainSpan.renew {other : SpanForm} (h : IsPlainSpan other label body)
    (hv : ∀ v, queryValue? custom context (other.query label) = some v → ¬ spanMark <:+: v.inline.toList)
    {form' : SpanForm} {label' body' : List Char}
    (he : (Segment.span other label body).renew custom context form = .span form' label' body') :
    IsPlainSpan form' label' body' := by
  rw [Segment.renew] at he
  split at he
  · split at he
    · next v hq =>
      cases he
      have hs := isSpan_encodeQuery (query_toList_ne_nil other h.label_ne_nil) (hv v hq)
      exact ⟨hs.label_ne_nil, hs.quote_not_mem, not_mem_encodeQuery (by decide) _, hv v hq, by simp⟩
    · cases he
      exact h
  · cases he
    exact h

/-- A pass gives a document again. -/
theorem IsDocument.renew (h : IsDocument segments) (hv : PlainValues custom context segments) :
    IsDocument (segments.map (Segment.renew custom context form)) where
  plain run hr := by
    obtain ⟨part, hp, he⟩ := List.infix_map_iff.1 hr
    have hpart : part = run.map Segment.plain := by
      clear hr hp
      induction run generalizing part with
      | nil => simpa using he.symm
      | cons s run ih =>
        obtain ⟨segment, part, rfl, hs, ht⟩ := List.map_eq_cons_iff.1 he.symm
        rw [Segment.renew_eq_plain hs, ih part ht.symm, List.map_cons]
    exact h.plain run (hpart ▸ hp)
  span form' label' body' hm := by
    obtain ⟨segment, hs, he⟩ := List.mem_map.1 hm
    cases segment with
    | plain s => cases he
    | span other label body =>
      exact (h.span other label body hs).renew (fun v hq => hv _ hs v hq) he

theorem PlainValues.renew (hv : PlainValues custom context segments) :
    PlainValues custom context (segments.map (Segment.renew custom context form)) := by
  intro segment hm v hval
  obtain ⟨old, hs, rfl⟩ := List.mem_map.1 hm
  rw [Segment.value?_renew] at hval
  exact hv old hs v hval

/-- The passes of all forms, one after the other, give what a segment is to become. -/
theorem Segment.text_renew (segment : Segment) :
    (((segment.renew custom context .reference).renew custom context .selfClosing).renew
      custom context .paired).text = segment.rendered custom context := by
  cases segment with
  | plain s => rfl
  | span form label body =>
    cases hv : queryValue? custom context (form.query label) with
    | none => cases form <;> simp [renew, rendered, hv, text]
    | some v => cases form <;> simp [renew, rendered, hv, text, query_encodeQuery, span_toList]

/-! ### Rendering -/

/-- Rendering a document writes every span anew whose query has a value, and keeps the other spans and
all plain text. -/
theorem render_segments (h : IsDocument segments) (hv : PlainValues custom context segments) :
    render custom context (.ofList (segments.flatMap Segment.text)) =
      .ofList (segments.flatMap (Segment.rendered custom context)) := by
  rw [render_ofList, renewText_segments h, renewText_segments (h.renew hv),
    renewText_segments ((h.renew hv).renew hv.renew), List.flatMap_map, List.flatMap_map,
    List.flatMap_map, List.flatMap_congr fun segment _ => segment.text_renew]

/-- A document with a span of each form between plain texts; the last one has no value. -/
def unitSegments : List Segment :=
  [.plain "in ".toList, .span .reference "unit".toList "?".toList, .plain " <sp".toList,
    .span .selfClosing "get()".toList "\n".toList, .span .paired "get(".toList "0".toList]

/-- A note with one property. -/
def unitNote : Context := ⟨"note.md", [("note.md", .document [("unit", .string "EUR")])], [], 0⟩

theorem render_segments_unit : IsDocument unitSegments ∧ PlainValues [] unitNote unitSegments ∧
    render [] unitNote (.ofList (unitSegments.flatMap Segment.text)) =
      "in <span query=\"get(unit)\"></span>EUR<span type=\"end\"></span> <sp" ++
        "<span query=\"get()\"></span><span type=\"end\"></span>" ++
        "<span query=\"get(\"></span>0<span type=\"end\"></span>" := by
  have hunit : queryValue? [] unitNote "get(unit)" = some (.string "EUR") := by
    have hq : parseQuery [] "get(unit)" = .ok ⟨.get, ["unit"]⟩ :=
      parseQuery_eq_ok_iff.2 ⟨"get".toList, "unit".toList, .get, ["unit"], by cbv, by cbv, by cbv, rfl⟩
    rw [queryValue?, hq]
    cbv
  have hnone : queryValue? [] unitNote "get()" = some (.string "") := by cbv
  have hbad : queryValue? [] unitNote "get(" = none := by cbv
  have hdoc : IsDocument unitSegments := by
    refine .of_isChain (by simp [unitSegments, Segment.isPlain]) ?_ ?_
    · intro s hs
      simp only [unitSegments, List.mem_cons, Segment.plain.injEq, reduceCtorEq, List.not_mem_nil,
        or_false, false_or] at hs
      rcases hs with rfl | rfl <;> decide
    · intro form label body hm
      simp only [unitSegments, List.mem_cons, Segment.span.injEq, reduceCtorEq, List.not_mem_nil,
        or_false, false_or] at hm
      rcases hm with ⟨rfl, rfl, rfl⟩ | ⟨rfl, rfl, rfl⟩ | ⟨rfl, rfl, rfl⟩
      all_goals constructor <;> decide
  have hquery : SpanForm.reference.query "unit".toList = "get(unit)" ∧
      SpanForm.selfClosing.query "get()".toList = "get()" ∧
      SpanForm.paired.query "get(".toList = "get(" := ⟨rfl, by cbv, by cbv⟩
  have hvals : PlainValues [] unitNote unitSegments := by
    intro segment hm v hv
    simp only [unitSegments, List.mem_cons, List.not_mem_nil, or_false] at hm
    rcases hm with rfl | rfl | rfl | rfl | rfl
    · cases hv
    · rw [Segment.value?, hquery.1, hunit] at hv
      cases hv
      decide
    · cases hv
    · rw [Segment.value?, hquery.2.1, hnone] at hv
      cases hv
      decide
    · rw [Segment.value?, hquery.2.2, hbad] at hv
      cases hv
  refine ⟨hdoc, hvals, (render_segments hdoc hvals).trans ?_⟩
  simp only [unitSegments, List.flatMap_cons, List.flatMap_nil, Segment.rendered, hquery.1, hquery.2.1,
    hquery.2.2, hunit, hnone, hbad]
  decide +kernel

end LiveNotes
