import Mathlib.Data.List.Forall2
import LiveNotes.Proofs.Script.Consumption
import LiveNotes.Proofs.Script.ParserComplete
import LiveNotes.Proofs.Script.ParserSound

/-!
Expressions that stand side by side do not add up to a depth.

* `KeepsDepth read`: a reader leaves the depth as it found it; `readers_keepDepth`: every reader does;
* `IsElement part item`: tokens that are one expression when they are alone in brackets;
* `parseTokens_bracketed`: such tokens with commas between them are all their expressions, however many
  there are.

An element is read alone with a bracket behind it and among others with a comma; `Reads.exists_stretch`
carries it over.
-/

namespace LiveNotes.Script

/-! ### Readers and depth -/

/-- What a reader gives has the depth that it began at. -/
def KeepsDepth {α : Type} (read : (c : Cursor) → Except SyntaxError (Read c α)) : Prop :=
  ∀ c r, read c = .ok r → r.after.depth = c.depth

/-- Every reader gives back the depth that it was called at. The levels of the loops `chain` and `links` are
given back by the readers around them, `binaryLevel` and `operand`. -/
theorem readers_keepDepth :
    KeepsDepth expression ∧ KeepsDepth functionTail ∧ KeepsDepth paramList ∧ KeepsDepth block ∧
    (∀ done, KeepsDepth (statementsFrom done)) ∧ KeepsDepth statement ∧ KeepsDepth conditional ∧
    (∀ n hn, KeepsDepth (binaryLevel n hn)) ∧ KeepsDepth unary ∧ KeepsDepth operand ∧
    (∀ close done, KeepsDepth (elements close done)) ∧ (∀ done, KeepsDepth (fields done)) ∧
    (∀ name c r, fieldValue name c = .ok r → r.after.depth = c.depth) ∧ KeepsDepth atom := by
  refine ⟨fun c _ h => (sound .expression c h).2, fun c _ h => (sound .functionTail c h).2,
    fun c _ h => (paramList_ok h).2, fun c _ h => (sound .block c h).2, fun done c r h => ?_,
    fun c _ h => (sound .statement c h).2, fun c _ h => (sound .conditional c h).2,
    fun n hn c _ h => (sound (.level n) c h).2, fun c _ h => (sound .unary c h).2,
    fun c _ h => (sound .operand c h).2, fun close done c r h => ?_, fun done c r h => ?_,
    fun name c _ h => (sound (.fieldValue name) c h).2, fun c _ h => (sound .atom c h).2⟩
  -- these three give what they had read before, too
  · obtain ⟨-, -, -, hdepth⟩ := sound .statements c h
    exact hdepth
  · obtain ⟨-, -, -, hdepth⟩ := sound (.elements close) c h
    exact hdepth
  · obtain ⟨-, -, -, hdepth⟩ := sound .fields c h
    exact hdepth

/-! ### Array literals -/

section

variable {ts rest : List Token} {xs : List Expr} {k n : Nat}

/-- What stands behind an expression gives an array only if there is nothing of it. -/
def Goal.Unmoved (ts rest : List Token) (k : Nat) : (g : Goal) → g.Result → Prop
  | .chain _ left, x | .links left, x => ∀ xs, x = .array xs → left = .array xs ∧ ts = rest ∧ k = 0
  | _, _ => True

theorem Reads.unmoved {g : Goal} {x : g.Result} (h : Reads g ts x rest k) : g.Unmoved ts rest k x := by
  induction h with
  | chainEnd | linksEnd => exact fun xs hx => ⟨hx, rfl, rfl⟩
  | chain _ _ _ _ ih | methodCall _ _ _ ih | index _ _ _ ih | call _ _ _ ih | member _ _ ih =>
    exact fun xs hx => nomatch (ih xs hx).1
  | _ => trivial

theorem Reads.unary_of_level_array (h : Reads (.level n) ts (.array xs) rest k) :
    Reads .unary ts (.array xs) rest k := by
  induction n generalizing k with
  | zero =>
    cases h with
    | tightest h => exact h
  | succ n ih =>
    cases h with
    | level h h' =>
      obtain ⟨rfl, rfl, rfl⟩ := h'.unmoved xs rfl
      rw [Nat.max_zero]
      exact ih h

theorem Reads.elements_of_operand_array (h : Reads .operand (.symbol .lBracket :: ts) (.array xs) rest k) :
    Reads (.elements .rBracket) ts xs rest k := by
  cases h with
  | operand h h' =>
    obtain ⟨rfl, rfl, rfl⟩ := h'.unmoved xs rfl
    rw [Nat.max_zero]
    cases h with
    | array h => exact h
    | literal hl => cases hl

/-- An array that begins with its bracket is a list of elements up to the closing one. -/
theorem Reads.elements_of_array (h : Reads .expression (.symbol .lBracket :: ts) (.array xs) rest k) :
    ∃ j, k = j + 1 ∧ Reads (.elements .rBracket) ts xs rest j := by
  cases h with
  | noFunction _ _ h =>
    cases h with
    | unconditional h _ =>
      cases h.unary_of_level_array with
      | noOperator _ h => exact ⟨_, rfl, h.elements_of_operand_array⟩

/-- The other way round. -/
theorem Reads.array_of_elements (h : Reads (.elements .rBracket) ts xs rest k)
    (hc : closes (peek rest) = true) :
    Reads .expression (.symbol .lBracket :: ts) (.array xs) rest (k + 1) :=
  (h.array.toUnary rfl (not_links_of_closes hc)).toExpression nofun
    (fun _ _ => not_arrowHead nofun nofun) hc

end

/-! ### One element -/

/-- The tokens of a list in brackets, up to the end of its text. -/
def bracketed (parts : List (List Token)) : List Token :=
  .symbol .lBracket :: ([.symbol .comma].intercalate parts ++ [.symbol .rBracket, .eof])

/-- Tokens within a text, without a comma at their end, that are one expression alone in brackets. -/
structure IsElement (part : List Token) (item : Expr) : Prop where
  noEnd : ∀ t ∈ part, t ≠ .eof
  noComma : part.getLast? ≠ some (.symbol .comma)
  parsed : ∃ ts : Tokens, ts.map Prod.fst = bracketed [part] ∧ parseTokens ts = .ok (.array [item])

section

variable {part front rest : List Token} {item : Expr}

theorem peek_skipSemicolons_ne_eof (hfront : ∀ t ∈ front, t ≠ .eof) :
    peek (skipSemicolons (front ++ .symbol .rBracket :: rest)) ≠ .eof := by
  induction front with
  | nil => exact nofun
  | cons t front ih =>
    obtain ⟨ht, hmore⟩ := List.forall_mem_cons.1 hfront
    by_cases hsemi : t = .symbol .semicolon
    · subst hsemi
      exact ih hmore
    · have hpeek : peek (t :: (front ++ .symbol .rBracket :: rest)) ≠ .symbol .semicolon := hsemi
      rw [List.cons_append, skipSemicolons_of_peek hpeek]
      exact ht

/-- The bracket behind which nothing is left is the last one. -/
theorem eq_of_bracket_last (hpart : ∀ t ∈ part, t ≠ .eof) (hrest : peek (skipSemicolons rest) = .eof)
    (h : part ++ [.symbol .rBracket, .eof] = front ++ .symbol .rBracket :: rest) :
    front = part ∧ rest = [.eof] := by
  rcases List.append_eq_append_iff.1 h with ⟨more, rfl, hmore⟩ | ⟨more, rfl, hmore⟩
  · match more with
    | [] => exact ⟨List.append_nil _, (List.cons.inj hmore).2.symm⟩
    | [_] => simp at hmore
    | _ :: _ :: _ => simp at hmore
  · cases more with
    | nil => exact ⟨(List.append_nil _).symm, (List.cons.inj hmore).2⟩
    | cons t more =>
      obtain ⟨-, rfl⟩ := List.cons.inj hmore
      have hnot : ∀ t ∈ more, t ≠ .eof := fun t ht =>
        hpart t (List.mem_append_right _ (List.mem_cons_of_mem _ ht))
      exact absurd hrest (peek_skipSemicolons_ne_eof hnot)

/-- An element is read wherever one may end behind it, and has a level to spare. -/
theorem IsElement.exists_reads (h : IsElement part item) : ∃ k < maxDepth, ∀ behind,
    separates (peek behind) = true →
      peek (part ++ behind) ≠ .symbol .rBracket ∧ Reads .expression (part ++ behind) item behind k := by
  obtain ⟨hend, hcomma, ts, hts, hparse⟩ := h
  obtain ⟨rest, k, hreads, hk, hrest⟩ := parseTokens_reads hparse
  rw [hts, bracketed, List.intercalate_singleton] at hreads
  obtain ⟨k, rfl, helements⟩ := hreads.elements_of_array
  generalize hus : part ++ [.symbol .rBracket, .eof] = us at helements
  cases helements with
  | element _ h hnone =>
    -- the comma behind the element is the last token of the part
    cases hnone with
    | noElement =>
      obtain ⟨used, hused, -⟩ := h.exists_stretch
      have hcut : part ++ [.symbol .rBracket, .eof] = (used ++ [.symbol .comma]) ++ .symbol .rBracket :: rest := by
        rw [hus, hused, List.append_assoc, List.singleton_append]
      obtain ⟨rfl, -⟩ := eq_of_bracket_last hend hrest hcut
      exact absurd List.getLast?_concat hcomma
  | lastElement _ hpeek h =>
    obtain ⟨used, hused, hstretch, hall⟩ := h.exists_stretch
    obtain ⟨rfl, rfl⟩ := eq_of_bracket_last hend hrest (hus.trans hused)
    rw [hused, hstretch.peek_append rfl] at hpeek
    refine ⟨k, hk, fun behind hs => ⟨?_, hall behind (.inr ⟨rfl, hs⟩)⟩⟩
    rwa [hstretch.peek_append rfl]

end

/-! ### Many elements -/

/-- Elements with commas between them go as deep as the deepest of them. -/
theorem exists_reads_elements {parts : List (List Token)} {items : List Expr}
    (h : List.Forall₂ IsElement parts items) : ∃ k < maxDepth,
      Reads (.elements .rBracket) ([.symbol .comma].intercalate parts ++ [.symbol .rBracket, .eof]) items
        [.eof] k := by
  induction h with
  | nil => exact ⟨0, by decide, .noElement⟩
  | cons hpart hparts ih =>
    obtain ⟨k, hk, hreads⟩ := hpart.exists_reads
    cases hparts with
    | nil =>
      obtain ⟨hpeek, hlast⟩ := hreads [.symbol .rBracket, .eof] rfl
      rw [List.intercalate_singleton]
      exact ⟨k, hk, .lastElement nofun hpeek hlast⟩
    | cons =>
      obtain ⟨k', hk', hrest⟩ := ih
      rw [List.intercalate_cons_cons, List.append_assoc, List.append_assoc, List.singleton_append]
      obtain ⟨hpeek, hfirst⟩ := hreads (.symbol .comma :: _) rfl
      exact ⟨max k k', Nat.max_lt.2 ⟨hk, hk'⟩, .element hpeek hfirst hrest⟩

/-- Elements up to the end of a text are parsed when there is a level for the list itself. -/
theorem parseTokens_of_elements {us : List Token} {items : List Expr} {ts : Tokens} {k : Nat}
    (h : Reads (.elements .rBracket) us items [.eof] k) (hk : k < maxDepth)
    (hts : ts.map Prod.fst = .symbol .lBracket :: us) : parseTokens ts = .ok (.array items) := by
  have hreads : Reads .expression (ts.map Prod.fst) (.array items) [.eof] (k + 1) := by
    rw [hts]
    exact h.array_of_elements rfl
  rcases parseTokens_of_reads hreads rfl with ⟨-, x, hx, rfl⟩ | ⟨hfits, -⟩
  · exact hx
  · exact absurd (.inr (by omega)) hfits

/-- Elements side by side are parsed if each of them is alone, however many there are, and every reader
gives back the depth that it was called at. -/
theorem parseTokens_bracketed :
    (∀ (parts : List (List Token)) (items : List Expr) (ts : Tokens), List.Forall₂ IsElement parts items →
      ts.map Prod.fst = bracketed parts → parseTokens ts = .ok (.array items)) ∧
    KeepsDepth expression ∧ KeepsDepth functionTail ∧ KeepsDepth paramList ∧ KeepsDepth block ∧
    (∀ done, KeepsDepth (statementsFrom done)) ∧ KeepsDepth statement ∧ KeepsDepth conditional ∧
    (∀ n hn, KeepsDepth (binaryLevel n hn)) ∧ KeepsDepth unary ∧ KeepsDepth operand ∧
    (∀ close done, KeepsDepth (elements close done)) ∧ (∀ done, KeepsDepth (fields done)) ∧
    (∀ name c r, fieldValue name c = .ok r → r.after.depth = c.depth) ∧ KeepsDepth atom := by
  refine ⟨fun parts items ts h hts => ?_, readers_keepDepth⟩
  obtain ⟨k, hk, hreads⟩ := exists_reads_elements h
  exact parseTokens_of_elements hreads hk hts

theorem kinds_map_zero (us : List Token) : (us.map fun t => (t, 0)).map Prod.fst = us := by
  rw [List.map_map]
  exact List.map_id us

/-- A name is an element. -/
theorem isElement_name (name : String) : IsElement [.identifier name] (.identifier name) := by
  have hreads : Reads (.elements .rBracket) [.identifier name, .symbol .rBracket, .eof] [.identifier name]
      [.eof] 1 := .lastElement (by decide) (by simp [peek]) (reads_name rfl)
  have hkinds := kinds_map_zero (bracketed [[.identifier name]])
  exact ⟨by simp, by simp, _, hkinds, parseTokens_of_elements hreads (by decide) hkinds⟩

/-- Many more names than there are levels. -/
theorem parseTokens_bracketed_names :
    parseTokens ((bracketed (List.replicate 500 [.identifier "x"])).map fun t => (t, 0)) =
      .ok (.array (List.replicate 500 (.identifier "x"))) := by
  have hnames (n : Nat) : List.Forall₂ IsElement (List.replicate n [.identifier "x"])
      (List.replicate n (.identifier "x")) := by
    induction n with
    | zero => exact .nil
    | succ n ih => exact .cons (isElement_name "x") ih
  exact parseTokens_bracketed.1 _ _ _ (hnames 500) (kinds_map_zero _)

end LiveNotes.Script
