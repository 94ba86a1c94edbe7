import LiveNotes.Query.Eval
import LiveNotes.Query.Parser

/-!
Markup for values inside the text of a document: a query in a span, the value that it had when it
was last computed, and a span that ends it. Two older forms are read too, and written anew in the
form of today.

* `encodeQuery`, `decodeQuery`: a query as the value of an attribute;
* `span`: a query with its value;
* `queries`: the queries of a text;
* `render`: a text with its values computed anew.
-/

namespace LiveNotes

/-- The forms of a span, in the order in which they are looked for. -/
inductive SpanForm where
  | reference | selfClosing | paired
deriving DecidableEq, Repr

namespace SpanForm

/-- All forms. -/
def all : List SpanForm := [.reference, .selfClosing, .paired]

/-- What stands before the attribute. -/
def opening : SpanForm → List Char
  | .reference => "<span id=\"".toList
  | .selfClosing | .paired => "<span query=\"".toList

/-- What stands between the attribute and the value. -/
def middle : SpanForm → List Char
  | .reference | .selfClosing => "\"/>".toList
  | .paired => "\"></span>".toList

/-- What stands behind the value. -/
def closing : SpanForm → List Char
  | .reference | .selfClosing => "<span type=\"end\"/>".toList
  | .paired => "<span type=\"end\"></span>".toList

/-- Whether a value can have more than one line. -/
def spansLines : SpanForm → Bool
  | .reference => false
  | .selfClosing | .paired => true

theorem opening_ne_nil (form : SpanForm) : form.opening ≠ [] := by
  cases form <;> decide

end SpanForm

/-! ### Attributes -/

/-- A character of a query inside an attribute. -/
def encodeChar (c : Char) : List Char :=
  match c with
  | '&' => "&amp;".toList
  | '"' => "&quot;".toList
  | '<' => "&lt;".toList
  | '>' => "&gt;".toList
  | '\n' => "&#10;".toList
  | c => [c]

/-- A query as the value of an attribute. -/
def encodeQuery (query : List Char) : List Char := query.flatMap encodeChar

/-- The query in an attribute. -/
def decodeQuery (encoded : List Char) : List Char :=
  let step (s : List Char) (p : String × Char) : List Char := Text.replaceAll p.1.toList [p.2] s
  [("&#10;", '\n'), ("&quot;", '"'), ("&lt;", '<'), ("&gt;", '>'), ("&amp;", '&')].foldl step encoded

/-- The query that a span with an attribute has. -/
def SpanForm.query (form : SpanForm) (label : List Char) : String :=
  match form with
  | .reference => "get(" ++ String.ofList label ++ ")"
  | .selfClosing | .paired => .ofList (decodeQuery label)

/-- A query with its value, as it is written today. -/
def span (query : String) (value : Value) : String :=
  let form := SpanForm.paired
  .ofList (form.opening ++ encodeQuery query.toList ++ form.middle ++ value.inline.toList ++
    form.closing)

/-! ### Spans -/

/-- A span found in a text: its attribute, and all of it as it stands there. -/
structure Span where
  label : List Char
  whole : List Char

/-- The attribute of a span whose opening was read, its value, and the text behind the span. -/
def spanBehind? (form : SpanForm) (s : List Char) : Option (List Char × List Char × List Char) :=
  let label := s.takeWhile (· != '"')
  match Text.stripLead? form.middle (s.dropWhile (· != '"')) with
  | none => none
  | some s =>
    match Text.cut? form.closing s with
    | none => none
    | some (value, behind) =>
      if label.isEmpty || !form.spansLines && value.contains '\n' then none
      else some (label, value, behind)

theorem spanBehind?_length {form : SpanForm} {s : List Char}
    {r : List Char × List Char × List Char} (h : spanBehind? form s = some r) :
    r.2.2.length ≤ s.length := by
  unfold spanBehind? at h
  have hl := (List.dropWhile_sublist (· != '"') (l := s)).length_le
  split at h
  · cases h
  · rename_i inner hm
    have h2 := congrArg List.length (Text.stripLead?_eq_some.1 hm)
    split at h
    · cases h
    · rename_i value behind hc
      have h3 := congrArg List.length (Text.cut?_eq_some hc)
      simp only [List.length_append] at h2 h3
      dsimp only at h
      split at h
      · cases h
      · cases h
        simp only
        omega

/-- A span of some form at the start of a text. -/
def span? (form : SpanForm) (s : List Char) : Option (Text.Hit s Span) :=
  match ho : Text.stripLead? form.opening s with
  | none => none
  | some inner =>
    match hb : spanBehind? form inner with
    | none => none
    | some (label, value, behind) =>
      some ⟨⟨label, form.opening ++ label ++ form.middle ++ value ++ form.closing⟩, behind, by
        have h1 := congrArg List.length (Text.stripLead?_eq_some.1 ho)
        have h2 := spanBehind?_length hb
        have h3 := List.length_pos_iff.2 form.opening_ne_nil
        simp only [List.length_append] at h1 h2
        omega⟩

/-- A text as the spans of some form and what stands between them. -/
def spanPieces (form : SpanForm) (text : String) : List (Text.Piece Span) :=
  Text.pieces (span? form) text.toList

/-- The queries of the spans of some form. -/
def formQueries (text : String) (form : SpanForm) : List String :=
  (spanPieces form text).filterMap fun
    | .hit s => some (form.query s.label)
    | .plain _ => none

/-- The queries of all spans, older forms first. -/
def queries (text : String) : List String := SpanForm.all.flatMap (formQueries text)

/-- A span with its value computed anew; without a value it stays as it is. -/
def renewSpan (custom : List String) (context : Context) (form : SpanForm) (s : Span) : String :=
  let query := form.query s.label
  match parseQuery custom query with
  | .error _ => .ofList s.whole
  | .ok q =>
    match q.value? context with
    | some v => span query v
    | none => .ofList s.whole

/-- A text with the spans of some form renewed. -/
def renewForm (custom : List String) (context : Context) (text : String) (form : SpanForm) :
    String :=
  String.join ((spanPieces form text).map fun
    | .hit s => renewSpan custom context form s
    | .plain s => s)

/-- A text with all its values computed anew, older forms first. -/
def render (custom : List String) (context : Context) (text : String) : String :=
  SpanForm.all.foldl (renewForm custom context) text

end LiveNotes
