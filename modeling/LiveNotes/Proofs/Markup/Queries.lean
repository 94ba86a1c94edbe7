import LiveNotes.Proofs.Markup.Segments

/-!
# The queries of a document

In a document of plain text and of queries with their values, as `span` writes them, the queries that
are found are these and no others, in their order (`queries_documentText`).

The searches for the older forms find nothing: they pass over the plain text as well as over the spans
of today. The search for the form of today passes over the plain text, finds each span where it starts,
and goes on behind it (`formQueries_documentText`).
-/

namespace LiveNotes

open Text

/-- A value without markup makes up a plain span with every query that is not empty. -/
theorem isPlainSpan_encodeQuery {query : String} {v : Value} (hq : query ≠ "")
    (hv : ¬ spanMark <:+: v.inline.toList) :
    IsPlainSpan .paired (encodeQuery query.toList) v.inline.toList := by
  have hs := isSpan_encodeQuery (by simpa using hq) hv
  exact ⟨hs.label_ne_nil, hs.quote_not_mem, not_mem_encodeQuery (by decide) _, hv, nofun⟩

/-! ### Documents -/

/-- A query with its value, and the plain text between it and the next one. -/
structure Passage where
  query : String
  value : Value
  behind : String

/-- A passage as it stands in a document. -/
def Passage.text (p : Passage) : String := span p.query p.value ++ p.behind

/-- A passage whose query is not empty, without a mark in the text of its value or in the text behind
it. -/
structure Passage.IsPlain (p : Passage) : Prop where
  query_ne_empty : p.query ≠ ""
  value_plain : ¬ spanMark <:+: p.value.inline.toList
  behind_plain : ¬ spanMark <:+: p.behind.toList

/-- A document: plain text, and passages behind it. Plain texts side by side are one text, and an empty
one stands between two spans that touch, so every text put together from spans and plain text is one. -/
def documentText (first : String) (passages : List Passage) : String :=
  first ++ String.join (passages.map Passage.text)

variable {first : String} {passages : List Passage}

theorem documentText_nil (first : String) : documentText first [] = first := String.append_empty

theorem documentText_cons (first : String) (p : Passage) (passages : List Passage) :
    documentText first (p :: passages) =
      .ofList (first.toList ++ (spanText .paired (encodeQuery p.query.toList) p.value.inline.toList ++
        (documentText p.behind passages).toList)) := by
  rw [← String.toList_inj]
  simp [documentText, Passage.text, span_toList, String.toList_join]

/-- The search for one form goes through plain text and finds the query of each passage if that is the
form of today. -/
theorem formQueries_documentText (hf : ¬ spanMark <:+: first.toList) (h : ∀ p ∈ passages, p.IsPlain)
    (form : SpanForm) :
    formQueries (documentText first passages) form =
      if form = .paired then passages.map Passage.query else [] := by
  induction passages generalizing first with
  | nil =>
    have hpass : Passes form first.toList [] := passes_of_plain hf nofun
    have hfind := formQueries_append hpass
    rw [List.append_nil, String.ofList_toList, formQueries_nil] at hfind
    rw [documentText_nil, hfind, List.map_nil, ite_self]
  | cons p passages ih =>
    have hp := h p List.mem_cons_self
    have hspan := isPlainSpan_encodeQuery hp.query_ne_empty hp.value_plain
    have htail := ih hp.behind_plain fun q hq => h q (List.mem_cons_of_mem _ hq)
    -- the plain text ends where the mark of the span begins
    have hpass : Passes form first.toList (spanText .paired (encodeQuery p.query.toList)
        p.value.inline.toList ++ (documentText p.behind passages).toList) :=
      passes_of_plain hf (head_of_mark (spanMark_prefix_spanText _ _ _ _))
    rw [documentText_cons, formQueries_append hpass, hspan.formQueries, String.ofList_toList, htail]
    by_cases he : form = .paired
    · subst he
      simp [query_encodeQuery]
    · simp [he, Ne.symm he]

/-- In a document whose plain text and values have no mark in them, exactly the queries are found for
which its spans were written, in their order. -/
theorem queries_documentText (hf : ¬ spanMark <:+: first.toList)
    (h : ∀ p ∈ passages, p.IsPlain) :
    queries (documentText first passages) = passages.map Passage.query := by
  simp [queries, SpanForm.all, formQueries_documentText hf h]

/-- Queries with characters that are encoded, one that looks encoded, and plain text that looks like the
start of a mark. -/
def quotedPassages : List Passage :=
  [⟨"jsFunc(a, func = (x) =>\n x > 1 && \"<\")", .string "</span>\n<spa", " <"⟩,
    ⟨"get(&lt;a)", .null, ""⟩, ⟨" ", .integer 3, "n"⟩]

theorem queries_documentText_quoted :
    (¬ spanMark <:+: "<sp".toList) ∧ (∀ p ∈ quotedPassages, p.IsPlain) ∧
      queries (documentText "<sp" quotedPassages) =
        ["jsFunc(a, func = (x) =>\n x > 1 && \"<\")", "get(&lt;a)", " "] := by
  have hf : ¬ spanMark <:+: "<sp".toList := by decide
  have h : ∀ p ∈ quotedPassages, p.IsPlain := by
    intro p hp
    simp only [quotedPassages, List.mem_cons, List.not_mem_nil, or_false] at hp
    rcases hp with rfl | rfl | rfl
    all_goals constructor <;> decide
  exact ⟨hf, h, queries_documentText hf h⟩

end LiveNotes
