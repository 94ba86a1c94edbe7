import LiveNotes.Proofs.Markup.Encoding
import LiveNotes.Proofs.Text.Pieces

/-!
# Spans in a text, and one pass over them

A pass over a text looks for the spans of one form and puts others in their place. This file says what
it finds and what it leaves behind.

* `spanText`, `IsSpan`, `Opens`: a span as it stands in a text, and the texts that start with one;
* `exists_span?`, `of_span?`, `span?_eq_none_iff`: the search for a span finds exactly these;
* `renewText`: a pass over the characters of a text, with its equations `renewText_nil`,
  `renewText_span`, `renewText_cons`, and `pass_induction`, which follows its recursion;
* `formQueries_span`, `formQueries_cons`: the same for the queries that are found.
-/

namespace LiveNotes

open Text

/-! ### Spans as they are written -/

/-- A span of some form as it stands in a text. -/
def spanText (form : SpanForm) (label body : List Char) : List Char :=
  form.opening ++ label ++ form.middle ++ body ++ form.closing

/-- An attribute and a value that make up a span: the attribute ends at the first double quote, and the
value where the end of the span stands for the first time. -/
structure IsSpan (form : SpanForm) (label body : List Char) : Prop where
  label_ne_nil : label ≠ []
  quote_not_mem : '"' ∉ label
  not_closing : ¬ form.closing <:+: body
  one_line : form.spansLines = false → '\n' ∉ body

/-- A text that starts with a span of some form. -/
def Opens (form : SpanForm) (s : List Char) : Prop :=
  ∃ label body rest, IsSpan form label body ∧ s = spanText form label body ++ rest

variable {form : SpanForm} {label body rest s : List Char}

theorem spanText_append (form : SpanForm) (label body rest : List Char) :
    spanText form label body ++ rest =
      form.opening ++ (label ++ (form.middle ++ (body ++ (form.closing ++ rest)))) := by
  simp [spanText]

theorem SpanForm.middle_eq_cons (form : SpanForm) : ∃ t, form.middle = '"' :: t := by
  cases form
  · exact ⟨_, rfl⟩
  · exact ⟨_, rfl⟩
  · exact ⟨_, rfl⟩

theorem SpanForm.closing_ne_nil (form : SpanForm) : form.closing ≠ [] := by
  cases form <;> decide

theorem SpanForm.closing_unbordered (form : SpanForm) : Unbordered form.closing := by
  cases form <;> decide

/-! ### The search for one span -/

/-- Behind the opening, a span is read as it is written. -/
theorem spanBehind?_eq_some_iff :
    spanBehind? form s = some (label, body, rest) ↔
      IsSpan form label body ∧ s = label ++ (form.middle ++ (body ++ (form.closing ++ rest))) := by
  constructor
  · intro h
    unfold spanBehind? at h
    have hsplit := (@List.takeWhile_append_dropWhile _ (· != '"') s).symm
    split at h
    · cases h
    · next inner hm =>
      split at h
      · cases h
      · next value behind hc =>
        dsimp only at h
        split at h
        · cases h
        · next hcond =>
          cases h
          simp only [Bool.or_eq_true, Bool.and_eq_true, Bool.not_eq_true', List.isEmpty_iff,
            List.contains_iff_mem, not_or, not_and] at hcond
          refine ⟨⟨hcond.1, fun hq => ?_, not_infix_of_cut? form.closing_ne_nil hc, hcond.2⟩, ?_⟩
          · simpa using List.all_eq_true.1 List.all_takeWhile _ hq
          · rw [stripLead?_eq_some.1 hm, cut?_eq_some hc, List.append_assoc] at hsplit
            exact hsplit
  · rintro ⟨h, rfl⟩
    obtain ⟨t, ht⟩ := form.middle_eq_cons
    have hl : ∀ c ∈ label, (c != '"') = true := fun c hc => by
      simpa using fun e : c = '"' => h.quote_not_mem (e ▸ hc)
    have hq : ∀ rest, (form.middle ++ rest).takeWhile (· != '"') = [] ∧
        (form.middle ++ rest).dropWhile (· != '"') = form.middle ++ rest := by simp [ht]
    unfold spanBehind?
    rw [List.takeWhile_append_of_pos hl, List.dropWhile_append_of_pos hl, (hq _).1, (hq _).2,
      List.append_nil, stripLead?_append]
    dsimp only
    rw [cut?_append form.closing_unbordered h.not_closing]
    dsimp only
    rw [if_neg]
    simpa [h.label_ne_nil] using h.one_line

/-- Where a text starts with a span, it is found. -/
theorem exists_span? (h : IsSpan form label body) (rest : List Char) :
    ∃ hit, span? form (spanText form label body ++ rest) = some hit ∧
      hit.value = ⟨label, spanText form label body⟩ ∧ hit.behind = rest := by
  have ho : stripLead? form.opening (spanText form label body ++ rest) =
      some (label ++ (form.middle ++ (body ++ (form.closing ++ rest)))) := by
    rw [spanText_append, stripLead?_append]
  have hb : spanBehind? form (label ++ (form.middle ++ (body ++ (form.closing ++ rest)))) =
      some (label, body, rest) := spanBehind?_eq_some_iff.2 ⟨h, rfl⟩
  unfold span?
  split
  · next hn => cases hn.symm.trans ho
  · next inner hi =>
    cases hi.symm.trans ho
    split
    · next hn => cases hn.symm.trans hb
    · next hs =>
      cases hs.symm.trans hb
      exact ⟨_, rfl, rfl, rfl⟩

/-- A span that was found stands at the start of the text. -/
theorem of_span? {hit : Hit s Span} (h : span? form s = some hit) :
    ∃ label body, IsSpan form label body ∧ hit.value = ⟨label, spanText form label body⟩ ∧
      s = spanText form label body ++ hit.behind := by
  unfold span? at h
  split at h
  · cases h
  · next inner ho =>
    split at h
    · cases h
    · next label body behind hb =>
      cases h
      obtain ⟨hs, rfl⟩ := spanBehind?_eq_some_iff.1 hb
      exact ⟨label, body, hs, rfl, by rw [spanText_append]; exact stripLead?_eq_some.1 ho⟩

theorem span?_eq_none_iff : span? form s = none ↔ ¬ Opens form s := by
  constructor
  · rintro h ⟨label, body, rest, hs, rfl⟩
    obtain ⟨hit, hh, -⟩ := exists_span? hs rest
    cases h.symm.trans hh
  · intro h
    cases hh : span? form s with
    | none => rfl
    | some hit =>
      obtain ⟨label, body, hs, -, he⟩ := of_span? hh
      exact absurd ⟨label, body, _, hs, he⟩ h

theorem spanText_ne_nil (form : SpanForm) (label body : List Char) : spanText form label body ≠ [] := by
  simp [spanText, form.opening_ne_nil]

theorem not_opens_nil (form : SpanForm) : ¬ Opens form [] := by
  rintro ⟨label, body, rest, -, h⟩
  exact spanText_ne_nil form label body (List.append_eq_nil_iff.1 h.symm).1

/-- What holds of the empty text, and of a text when it holds behind the span or the character that it
starts with, holds of every text. -/
theorem pass_induction (form : SpanForm) {P : List Char → Prop} (nil : P [])
    (span : ∀ label body rest, IsSpan form label body → P rest → P (spanText form label body ++ rest))
    (cons : ∀ c s, ¬ Opens form (c :: s) → P s → P (c :: s)) (s : List Char) : P s := by
  induction h : s.length using Nat.strong_induction_on generalizing s with
  | _ n ih =>
    by_cases ho : Opens form s
    · obtain ⟨label, body, rest, hs, rfl⟩ := ho
      have hl := List.length_pos_iff.2 (spanText_ne_nil form label body)
      rw [List.length_append] at h
      exact span label body rest hs (ih rest.length (by omega) rest rfl)
    · cases s with
      | nil => exact nil
      | cons c s => exact cons c s ho (ih s.length (by simp at h; omega) s rfl)

/-! ### One pass -/

variable {custom : List String} {context : Context}

/-- The value of a query given as a text. -/
def queryValue? (custom : List String) (context : Context) (query : String) : Option Value :=
  match parseQuery custom query with
  | .error _ => none
  | .ok q => q.value? context

/-- What a pass writes for a span. -/
def renewedText (custom : List String) (context : Context) (form : SpanForm) (label body : List Char) :
    List Char :=
  match queryValue? custom context (form.query label) with
  | some v => (span (form.query label) v).toList
  | none => spanText form label body

/-- A pass over the characters of a text. -/
def renewText (custom : List String) (context : Context) (form : SpanForm) (s : List Char) : List Char :=
  substitute (span? form) (fun span => (renewSpan custom context form span).toList) s

theorem renewForm_ofList (custom : List String) (context : Context) (s : List Char) (form : SpanForm) :
    renewForm custom context (.ofList s) form = .ofList (renewText custom context form s) := by
  rw [← String.toList_inj, renewForm, String.toList_join, List.flatMap_map, spanPieces,
    String.toList_ofList, String.toList_ofList, renewText, substitute, Piece.substituted]
  refine List.flatMap_congr fun p _ => ?_
  cases p <;> rfl

/-- Rendering is one pass for each form, the oldest first. -/
theorem render_ofList (custom : List String) (context : Context) (s : List Char) :
    render custom context (.ofList s) =
      .ofList (renewText custom context .paired (renewText custom context .selfClosing
        (renewText custom context .reference s))) := by
  simp only [render, SpanForm.all, List.foldl_cons, List.foldl_nil, renewForm_ofList]

theorem renewSpan_toList (custom : List String) (context : Context) (form : SpanForm)
    (label body : List Char) :
    (renewSpan custom context form ⟨label, spanText form label body⟩).toList =
      renewedText custom context form label body := by
  rw [renewSpan, renewedText, queryValue?]
  dsimp only
  cases parseQuery custom (form.query label) with
  | error e => exact String.toList_ofList
  | ok q =>
    dsimp only
    cases q.value? context with
    | none => exact String.toList_ofList
    | some v => rfl

@[simp] theorem renewText_nil : renewText custom context form [] = [] :=
  substitute_nil (span?_eq_none_iff.2 (not_opens_nil form))

/-- A span at the start is renewed. -/
theorem renewText_span (h : IsSpan form label body) (rest : List Char) :
    renewText custom context form (spanText form label body ++ rest) =
      renewedText custom context form label body ++ renewText custom context form rest := by
  obtain ⟨hit, hh, hv, hb⟩ := exists_span? h rest
  rw [renewText, substitute_of_some hh, hv, hb, renewSpan_toList, renewText]

theorem renewText_spanText (h : IsSpan form label body) :
    renewText custom context form (spanText form label body) =
      renewedText custom context form label body := by
  have he : renewText custom context form (spanText form label body ++ []) =
      renewedText custom context form label body ++ renewText custom context form [] :=
    renewText_span h []
  simpa using he

/-- A character that no span starts with stays. -/
theorem renewText_cons {c : Char} (h : ¬ Opens form (c :: s)) :
    renewText custom context form (c :: s) = c :: renewText custom context form s :=
  substitute_cons (span?_eq_none_iff.2 h)

/-! ### The queries of a text -/

theorem formQueries_eq (form : SpanForm) (s : List Char) :
    formQueries (.ofList s) form = (found (span? form) s).map fun span => form.query span.label := by
  rw [formQueries, spanPieces, found, Piece.finds, String.toList_ofList, List.map_filterMap]
  refine List.filterMap_congr fun p _ => ?_
  cases p <;> rfl

theorem formQueries_nil (form : SpanForm) : formQueries (.ofList []) form = [] := by
  rw [formQueries_eq, found_nil (span?_eq_none_iff.2 (not_opens_nil form))]
  rfl

theorem formQueries_span (h : IsSpan form label body) (rest : List Char) :
    formQueries (.ofList (spanText form label body ++ rest)) form =
      form.query label :: formQueries (.ofList rest) form := by
  obtain ⟨hit, hh, hv, hb⟩ := exists_span? h rest
  rw [formQueries_eq, found_of_some hh, hv, hb, List.map_cons, formQueries_eq]

theorem formQueries_cons {c : Char} (h : ¬ Opens form (c :: s)) :
    formQueries (.ofList (c :: s)) form = formQueries (.ofList s) form := by
  rw [formQueries_eq, found_cons (span?_eq_none_iff.2 h), formQueries_eq]

/-! ### Spans as they are written today -/

theorem span_toList (query : String) (v : Value) :
    (span query v).toList = spanText .paired (encodeQuery query.toList) v.inline.toList :=
  String.toList_ofList

theorem renewedText_of_value {query : String} {v : Value} (hq : form.query label = query)
    (hv : queryValue? custom context query = some v) :
    renewedText custom context form label body =
      spanText .paired (encodeQuery query.toList) v.inline.toList := by
  rw [renewedText, hq, hv]
  exact span_toList query v

/-- The query in a span as it is written today is the one it was written for. -/
theorem query_encodeQuery (query : String) :
    SpanForm.paired.query (encodeQuery query.toList) = query := by
  rw [SpanForm.query, decodeQuery_encodeQuery, String.ofList_toList]

theorem query_toList_ne_nil (form : SpanForm) (h : label ≠ []) : (form.query label).toList ≠ [] := by
  cases form with
  | reference => simp [SpanForm.query]
  | selfClosing | paired => simpa [SpanForm.query] using decodeQuery_ne_nil h

/-- How the markup of a span starts. -/
def spanMark : List Char := "<span".toList

theorem SpanForm.spanMark_prefix_opening (form : SpanForm) : spanMark <+: form.opening := by
  cases form <;> decide

theorem SpanForm.spanMark_prefix_closing (form : SpanForm) : spanMark <+: form.closing := by
  cases form <;> decide

theorem spanMark_prefix_spanText (form : SpanForm) (label body rest : List Char) :
    spanMark <+: spanText form label body ++ rest := by
  rw [spanText_append]
  exact form.spanMark_prefix_opening.trans (List.prefix_append _ _)

/-- A value without markup makes up a span with every query that is not empty. -/
theorem isSpan_encodeQuery {query : String} {v : Value} (hq : query.toList ≠ [])
    (hv : ¬ spanMark <:+: v.inline.toList) :
    IsSpan .paired (encodeQuery query.toList) v.inline.toList where
  label_ne_nil := encodeQuery_ne_nil hq
  quote_not_mem := not_mem_encodeQuery (by decide) _
  not_closing h := hv (SpanForm.paired.spanMark_prefix_closing.isInfix.trans h)
  one_line h := nomatch h

end LiveNotes
