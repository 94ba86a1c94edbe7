import LiveNotes.Proofs.Script.ParserComplete
import LiveNotes.Proofs.Script.Printer

/-!
Reading gives back what was printed. The grammar reads the print of an expression as that expression,
whatever stands behind it that cannot go on with it, and goes at most three levels deep for each node.

* `Printed e`: the grammar reads the print of `e` at every place where it stands without parentheses,
  also as the beginning of a chain or of a row of accesses that goes on behind it;
* `Expr.printed`: every expression is, by induction on the syntax, with one lemma for each grade;
* `parseTokens_print`: the parser gives the expression back, or finds it too deep, and not the latter
  up to forty nodes.

A chain is read from the left while its tree is built from the right: that is why a print is followed
through to the end of the chain that it begins.
-/

namespace LiveNotes.Script

-- The equations of the printer are derived here, once for all the proofs below.
attribute [local simp] Expr.print Body.print Statement.print printAll printFields printStatements

/-! ### How a print begins -/

/-- Whether a print can begin with a token. -/
def begins : Token → Bool
  | .float _ | .integer _ | .string _ | .boolean _ | .null | .identifier _ => true
  | .symbol .lParen | .symbol .lBracket | .symbol .lBrace => true
  | .symbol .bang | .symbol .minus | .symbol .plus => true
  | _ => false

/-- Whether a token joins what stands before it with what follows. -/
def joins : Token → Bool
  | .symbol .rParen | .symbol .comma | .symbol .arrow => false
  | _ => true

/-- A print begins with a token that no other thing begins with; behind a name at its beginning
stands nothing or a token that joins; a parenthesis at the beginning is one around a print that is no
name. -/
structure Begins (e : Expr) (t : Token) (ts : List Token) : Prop where
  begins : begins t = true
  operand : e.grade = 0 → unaryOperator? t = none
  name : ∀ name, t = .identifier name →
    (e = .identifier name ∧ ts = []) ∨ ∃ s ts', ts = s :: ts' ∧ joins s = true
  parenthesis : t = .symbol .lParen → e.grade ≤ levels + 2 →
    ∃ (x : Expr) (ts' : List Token), 0 < x.grade ∧ ts = x.print ++ .symbol .rParen :: ts'

/-- The print of a first part, with something that joins behind it. -/
theorem begins_placed {e x : Expr} {p : Nat} {s : Token} {ts : List Token}
    (hx : ∃ t ts, x.print = t :: ts ∧ Begins x t ts) (hs : joins s = true)
    (hp : p ≤ levels + 2) (he : e.grade = 0 → p = 0) :
    ∃ t ts', placed p x.grade x.print ++ s :: ts = t :: ts' ∧ Begins e t ts' := by
  unfold placed
  split
  · next hle =>
    obtain ⟨t, ts', hprint, hb⟩ := hx
    refine ⟨t, ts' ++ s :: ts, by rw [hprint]; rfl, hb.begins, fun h0 => ?_, ?_, ?_⟩
    · exact hb.operand (by have := he h0; omega)
    · intro name ht
      rcases hb.name name ht with ⟨-, rfl⟩ | ⟨s', ts'', rfl, hs'⟩
      · exact .inr ⟨s, ts, rfl, hs⟩
      · exact .inr ⟨s', ts'' ++ s :: ts, rfl, hs'⟩
    · intro ht _
      obtain ⟨y, ts'', hy, rfl⟩ := hb.parenthesis ht (by omega)
      exact ⟨y, ts'' ++ s :: ts, hy, by simp⟩
  · next hgt =>
    refine ⟨.symbol .lParen, x.print ++ .symbol .rParen :: s :: ts, by simp [parenthesised], rfl,
      fun _ => rfl, nofun, fun _ _ => ⟨x, s :: ts, by omega, rfl⟩⟩

/-- Every print begins as it should, by induction on its first part. -/
theorem Expr.print_begins : (e : Expr) → ∃ t ts, e.print = t :: ts ∧ Begins e t ts
  | .float _ | .integer _ | .string _ | .boolean _ | .null =>
    ⟨_, _, rfl, rfl, fun _ => rfl, nofun, nofun⟩
  | .identifier name => by
    refine ⟨_, _, rfl, rfl, fun _ => rfl, fun n h => ?_, nofun⟩
    cases h
    exact .inl ⟨rfl, rfl⟩
  | .member o _ => begins_placed o.print_begins rfl (Nat.zero_le _) fun _ => rfl
  | .index o _ => begins_placed o.print_begins rfl (Nat.zero_le _) fun _ => rfl
  | .methodCall o _ _ => begins_placed o.print_begins rfl (Nat.zero_le _) fun _ => rfl
  | .unary op _ => by
    refine ⟨_, _, rfl, ?_, nofun, nofun, ?_⟩
    · cases op <;> rfl
    · cases op <;> nofun
  | .binary op left _ => by
    have := op.level_lt
    refine begins_placed left.print_begins ?_ (by omega) nofun
    rcases op with (op | op | op) <;> cases op <;> rfl
  | .conditional condition _ _ =>
    begins_placed condition.print_begins rfl (Nat.le_succ _) nofun
  | .call callee args => by
    refine ⟨_, _, rfl, rfl, fun _ => rfl, fun n h => ?_, nofun⟩
    exact .inr ⟨_, _, rfl, rfl⟩
  | .function _ _ => by
    refine ⟨_, _, rfl, rfl, nofun, nofun, fun _ h => ?_⟩
    exact absurd h (by simp [Expr.grade])
  | .object _ | .array _ => ⟨_, _, rfl, rfl, fun _ => rfl, nofun, nofun⟩

theorem peek_print (e : Expr) (us : List Token) : begins (peek (e.print ++ us)) = true := by
  obtain ⟨t, ts, hprint, hb⟩ := e.print_begins
  rw [hprint]
  exact hb.begins

theorem ne_of_begins {t s : Token} (h : begins t = true) (hs : begins s = false) : t ≠ s := by
  rintro rfl
  rw [h] at hs
  cases hs

/-- A print in parentheses is no parameter list, unless it is the print of a name. -/
theorem print_ne_nameTokens {x : Expr} (hx : ∀ name, x ≠ .identifier name) (params : List String)
    (us body : List Token) :
    x.print ++ .symbol .rParen :: us ≠ nameTokens params ++ .symbol .rParen :: body := by
  obtain ⟨t, ts, hprint, hb⟩ := x.print_begins
  rw [hprint]
  intro h
  have hjoined : ∀ name s rest, t = .identifier name → ts ++ .symbol .rParen :: us = s :: rest →
      joins s = true := by
    intro name s rest ht hts
    rcases hb.name name ht with ⟨rfl, -⟩ | ⟨s', ts', rfl, hs'⟩
    · exact absurd rfl (hx name)
    · cases hts
      exact hs'
  rcases params with _ | ⟨name, _ | ⟨name', names⟩⟩
  · have hbegins := hb.begins
    rw [(List.cons.inj h).1] at hbegins
    cases hbegins
  · cases hjoined name _ _ (List.cons.inj h).1 (List.cons.inj h).2
  · cases hjoined name _ _ (List.cons.inj h).1 (List.cons.inj h).2

theorem not_arrowHead_parenthesised {x : Expr} (hx : ∀ name, x ≠ .identifier name)
    (us : List Token) (params : List String) (body : List Token) :
    ¬ ArrowHead (parenthesised x.print ++ us) params body := by
  rintro (⟨name, -, h⟩ | h)
  · cases h
  · refine print_ne_nameTokens hx params us (.symbol .arrow :: body) ?_
    simpa [parenthesised, paramTokens] using h

/-- No arrow function begins where something else is printed. -/
theorem not_arrowHead_print {e : Expr} (he : e.grade ≤ levels + 2) {us : List Token}
    (hus : peek us ≠ .symbol .arrow) (params : List String) (body : List Token) :
    ¬ ArrowHead (e.print ++ us) params body := by
  obtain ⟨t, ts, hprint, hb⟩ := e.print_begins
  rw [hprint]
  rintro (⟨name, -, h⟩ | h)
  · rcases hb.name name (List.cons.inj h).1 with ⟨-, rfl⟩ | ⟨s, ts', rfl, hs⟩
    · exact hus (by rw [show us = _ from (List.cons.inj h).2]; rfl)
    · cases h
      cases hs
  · obtain ⟨x, ts', hx, rfl⟩ := hb.parenthesis (List.cons.inj h).1 he
    refine print_ne_nameTokens (x := x) ?_ params (ts' ++ us) (.symbol .arrow :: body) ?_
    · rintro name rfl
      exact absurd hx (Nat.lt_irrefl 0)
    · simpa [paramTokens] using (List.cons.inj h).2

/-! ### Prints in the places of the grammar -/

/-- What may stand behind an operand of a level: nothing that goes on with it. -/
def Stops (n : Nat) (us : List Token) : Prop :=
  ¬ Links (peek us) ∧ ∀ m < n, operatorAt? m (peek us) = none

theorem stops_of_closes {us : List Token} (h : closes (peek us) = true) (n : Nat) : Stops n us :=
  ⟨not_links_of_closes h, fun m _ => operatorAt?_of_closes h m⟩

theorem stops_symbol (op : BinaryOp) (us : List Token) : Stops op.level (.symbol op.symbol :: us) :=
  ⟨not_links_symbol op, fun _ => operatorAt?_tighter op⟩

theorem stops_question (us : List Token) : Stops levels (.symbol .question :: us) :=
  ⟨by simp [peek, Links], (by decide : ∀ m < levels, operatorAt? m (.symbol .question) = none)⟩

/-- The print of an operand is read as the beginning of a row of accesses. -/
def ReadsSpine (e : Expr) : Prop := ∀ ⦃us y rest k'⦄, Reads (.links e) us y rest k' →
  ∃ k, k ≤ max (3 * e.nodes - 1) (k' + e.nodes) ∧ Reads .operand (e.print ++ us) y rest k

/-- The print of an expression is read as an operand of a level. -/
def ReadsLevel (e : Expr) (n : Nat) : Prop := ∀ ⦃us⦄, Stops n us →
  ∃ k, k < 3 * e.nodes ∧ Reads (.level n) (e.print ++ us) e us k

/-- The print of an expression is read as the beginning of a chain of a level. -/
def ReadsChain (e : Expr) (n : Nat) : Prop := ∀ ⦃us y rest k'⦄, Stops n us →
  Reads (.chain n e) us y rest k' →
  ∃ k, k ≤ max (3 * e.nodes - 1) (k' + e.nodes) ∧ Reads (.level (n + 1)) (e.print ++ us) y rest k

/-- The print of an expression is read as an expression. -/
def ReadsExpression (e : Expr) : Prop := ∀ us, closes (peek us) = true →
  ∃ k, k ≤ 3 * e.nodes ∧ Reads .expression (e.print ++ us) e us k

/-- The print of an expression is read as the expression in every place that its grade allows. -/
structure Printed (e : Expr) : Prop where
  spine : e.grade = 0 → ReadsSpine e
  level : ∀ {n}, n ≤ levels → e.grade ≤ n + 1 → ReadsLevel e n
  chain : ∀ {n}, n < levels → e.grade ≤ n + 2 → ReadsChain e n
  expression : ReadsExpression e

section Grades

variable {e : Expr}

theorem readsLevel_zero_of_spine (hg : e.grade = 0) (h : ReadsSpine e) : ReadsLevel e 0 := by
  intro us hus
  obtain ⟨k, hk, hr⟩ := h (.linksEnd hus.1)
  obtain ⟨t, ts, hprint, hb⟩ := e.print_begins
  have := e.nodes_pos
  refine ⟨k, by omega, .tightest (.noOperator ?_ hr)⟩
  rw [hprint]
  exact hb.operand hg

/-- An operand of a level is one of the next level, with nothing behind it. -/
theorem readsLevel_succ {n : Nat} (h : ReadsChain e n) : ReadsLevel e (n + 1) := by
  intro us hus
  obtain ⟨k, hk, hr⟩ := h ⟨hus.1, fun m hm => hus.2 m (Nat.lt_succ_of_lt hm)⟩
    (.chainEnd (hus.2 n (Nat.lt_succ_self n)))
  have := e.nodes_pos
  exact ⟨k, by omega, hr⟩

/-- An operand of a level begins a chain of that level. -/
theorem readsChain_of_level {n : Nat} (h : ReadsLevel e n) : ReadsChain e n := by
  intro us y rest k' hus hchain
  obtain ⟨k, hk, hr⟩ := h hus
  exact ⟨max k k', by omega, .level hr hchain⟩

theorem expression_of_conditional (hg : e.grade ≤ levels + 2) {us : List Token}
    (hus : closes (peek us) = true) {k : Nat} (h : Reads .conditional (e.print ++ us) e us k) :
    Reads .expression (e.print ++ us) e us (k + 1) :=
  .noFunction (ne_of_begins (peek_print e us) rfl)
    (fun params body => not_arrowHead_print hg (ne_of_closes hus rfl) params body) h

theorem readsExpression_of_level (hg : e.grade ≤ levels + 1) (h : ReadsLevel e levels) :
    ReadsExpression e := by
  intro us hus
  obtain ⟨k, hk, hr⟩ := h (stops_of_closes hus levels)
  exact ⟨k + 1, hk,
    expression_of_conditional (by omega) hus (.unconditional hr (ne_of_closes hus rfl))⟩

/-- Printed at its own place, an expression is printed at all looser ones. -/
theorem printed_of (hspine : e.grade = 0 → ReadsSpine e) (hunary : e.grade = 1 → ReadsLevel e 0)
    (hchain : ∀ n < levels, e.grade = n + 2 → ReadsChain e n)
    (hloose : levels + 1 < e.grade → ReadsExpression e) : Printed e := by
  have hlevel : ∀ n ≤ levels, e.grade ≤ n + 1 → ReadsLevel e n := by
    intro n
    induction n with
    | zero =>
      intro _ hg
      rcases Nat.lt_or_ge e.grade 1 with h | h
      · exact readsLevel_zero_of_spine (by omega) (hspine (by omega))
      · exact hunary (by omega)
    | succ n ih =>
      intro hn hg
      rcases Nat.lt_or_ge e.grade (n + 2) with h | h
      · exact readsLevel_succ (readsChain_of_level (ih (by omega) (by omega)))
      · exact readsLevel_succ (hchain n hn (by omega))
  refine ⟨hspine, fun hn hg => hlevel _ hn hg, fun {n} hn hg => ?_, ?_⟩
  · rcases Nat.lt_or_ge e.grade (n + 2) with h | h
    · exact readsChain_of_level (hlevel n (Nat.le_of_lt hn) (by omega))
    · exact hchain n hn (by omega)
  · rcases Nat.lt_or_ge (levels + 1) e.grade with h | h
    · exact hloose h
    · exact readsExpression_of_level h (hlevel levels (Nat.le_refl _) h)

end Grades

section Places

variable {e : Expr} (h : Printed e)
include h

/-- What binds too loosely is read in parentheses. -/
theorem Printed.parenthesised_atom (us : List Token) :
    ∃ k, k ≤ 3 * e.nodes ∧ Reads .atom (parenthesised e.print ++ us) e us k := by
  obtain ⟨k, hk, hr⟩ := h.expression (.symbol .rParen :: us) rfl
  refine ⟨k, hk, ?_⟩
  simpa [parenthesised] using Reads.parentheses hr

theorem Printed.placed_spine {us rest : List Token} {y : Expr} {k' : Nat}
    (hy : Reads (.links e) us y rest k') : ∃ k, k ≤ max (3 * e.nodes) (k' + e.nodes) ∧
      Reads .operand (placed 0 e.grade e.print ++ us) y rest k := by
  unfold placed
  split
  · next hg =>
    obtain ⟨k, hk, hr⟩ := h.spine (Nat.le_zero.mp hg) hy
    exact ⟨k, by omega, hr⟩
  · obtain ⟨k, hk, hr⟩ := h.parenthesised_atom us
    exact ⟨max k k', by omega, .operand hr hy⟩

theorem Printed.placed_level {n : Nat} (hn : n ≤ levels) {us : List Token} (hus : Stops n us) :
    ∃ k, k ≤ 3 * e.nodes ∧ Reads (.level n) (placed (n + 1) e.grade e.print ++ us) e us k := by
  unfold placed
  split
  · next hg =>
    obtain ⟨k, hk, hr⟩ := h.level hn hg hus
    exact ⟨k, by omega, hr⟩
  · obtain ⟨k, hk, hr⟩ := h.parenthesised_atom us
    exact ⟨k, hk, (hr.toUnary rfl hus.1).toLevel hus.2⟩

theorem Printed.placed_chain {n : Nat} (hn : n < levels) {us rest : List Token} {y : Expr} {k' : Nat}
    (hus : Stops n us) (hy : Reads (.chain n e) us y rest k') :
    ∃ k, k ≤ max (3 * e.nodes) (k' + e.nodes) ∧
      Reads (.level (n + 1)) (placed (n + 2) e.grade e.print ++ us) y rest k := by
  unfold placed
  split
  · next hg =>
    obtain ⟨k, hk, hr⟩ := h.chain hn hg hus hy
    exact ⟨k, by omega, hr⟩
  · obtain ⟨k, hk, hr⟩ := h.parenthesised_atom us
    exact ⟨max k k', by omega, .level ((hr.toUnary rfl hus.1).toLevel hus.2) hy⟩

end Places

/-! ### Lists, statements and bodies -/

/-- The prints of some expressions are read as these, up to the symbol that closes them. -/
def PrintedAll (es : List Expr) : Prop := ∀ close us, closes (.symbol close) = true → close ≠ .comma →
  ∃ k, k ≤ 3 * nodesOfAll es ∧
    Reads (.elements close) (printAll es ++ .symbol close :: us) es us k

/-- The prints of some fields are read as these, up to the closing brace. -/
def PrintedFields (fs : List (String × Expr)) : Prop := ∀ us,
  ∃ k, k ≤ 3 * nodesOfFields fs ∧ Reads .fields (printFields fs ++ .symbol .rBrace :: us) fs us k

/-- The print of a statement is read as the statement, up to its semicolon. -/
def PrintedStatement (s : Statement) : Prop := ∀ us, ∃ k, k ≤ 3 * s.nodes ∧
  Reads .statement (s.print ++ .symbol .semicolon :: us) s (.symbol .semicolon :: us) k

/-- The prints of some statements are read as these, up to the closing brace. -/
def PrintedBlock (ss : List Statement) : Prop := ∀ us, ∃ k, k ≤ 3 * nodesOfBlock ss ∧
  Reads .statements (printStatements ss ++ .symbol .rBrace :: us) ss us k

/-- The print of a function with a certain body is read as the function. -/
def PrintedBody (b : Body) : Prop := ∀ params, ReadsExpression (.function params b)

theorem begins_of_closes {t : Token} (h : closes t = true) : begins t = false := by
  cases hb : begins t with
  | false => rfl
  | true =>
    unfold begins at hb
    split at hb
    all_goals first | cases h | cases hb

theorem printedAll_nil : PrintedAll [] := fun _ _ _ _ => ⟨0, Nat.zero_le _, .noElement⟩

theorem printedAll_cons {e : Expr} {es : List Expr} (h : Printed e) (hs : PrintedAll es) :
    PrintedAll (e :: es) := by
  intro close us hc hn
  have hpeek : ∀ ts, peek (e.print ++ ts) ≠ .symbol close :=
    fun ts => ne_of_begins (peek_print e ts) (begins_of_closes hc)
  cases es with
  | nil =>
    obtain ⟨k, hk, hr⟩ := h.expression (.symbol close :: us) hc
    exact ⟨k, hk, .lastElement hn (hpeek _) hr⟩
  | cons e' es =>
    obtain ⟨k', hk', hr'⟩ := hs close us hc hn
    obtain ⟨k, hk, hr⟩ := h.expression
      (.symbol .comma :: (printAll (e' :: es) ++ .symbol close :: us)) rfl
    refine ⟨max k k', by simp only [nodesOfAll] at *; omega, ?_⟩
    simpa [printAll] using Reads.element (hpeek _) hr hr'

theorem printedFields_nil : PrintedFields [] := fun _ => ⟨0, Nat.zero_le _, .noField⟩

theorem printedFields_cons {name : String} {e : Expr} {fs : List (String × Expr)} (h : Printed e)
    (hs : PrintedFields fs) : PrintedFields ((name, e) :: fs) := by
  intro us
  cases fs with
  | nil =>
    obtain ⟨k, hk, hr⟩ := h.expression (.symbol .rBrace :: us) rfl
    exact ⟨k, hk, .lastField rfl (.fieldValue hr)⟩
  | cons f fs =>
    obtain ⟨k', hk', hr'⟩ := hs us
    obtain ⟨k, hk, hr⟩ := h.expression
      (.symbol .comma :: (printFields (f :: fs) ++ .symbol .rBrace :: us)) rfl
    refine ⟨max k k', by simp only [nodesOfFields] at *; omega, ?_⟩
    simpa [printFields] using
      Reads.field (show fieldName? (.string name) = some name from rfl) (.fieldValue hr) hr'

theorem printedStatement_declare {name : String} {e : Expr} (h : Printed e) :
    PrintedStatement (.declare name e) := by
  intro us
  obtain ⟨k, hk, hr⟩ := h.expression (.symbol .semicolon :: us) rfl
  exact ⟨k, hk, .declare hr⟩

theorem printedStatement_give {e : Expr} (h : Printed e) : PrintedStatement (.give e) := by
  intro us
  obtain ⟨k, hk, hr⟩ := h.expression (.symbol .semicolon :: us) rfl
  refine ⟨k, hk, .give ?_ hr⟩
  have hb := peek_print e (.symbol .semicolon :: us)
  cases he : endsReturn (peek (e.print ++ .symbol .semicolon :: us)) with
  | false => rfl
  | true =>
    unfold endsReturn at he
    split at he
    · next ht =>
      rw [ht] at hb
      cases hb
    · next ht =>
      rw [ht] at hb
      cases hb
    · next ht =>
      rw [ht] at hb
      cases hb
    · cases he

theorem printedStatement_expression {e : Expr} (h : Printed e) :
    PrintedStatement (.expression e) := by
  intro us
  obtain ⟨k, hk, hr⟩ := h.expression (.symbol .semicolon :: us) rfl
  have hb := peek_print e (.symbol .semicolon :: us)
  exact ⟨k, hk, .bare (ne_of_begins hb rfl) (ne_of_begins hb rfl) hr⟩

theorem printedBlock_nil : PrintedBlock [] := fun _ => ⟨0, Nat.zero_le _, .noStatement rfl⟩

/-- A statement begins with a word of its own or as an expression does. -/
theorem peek_statement (s : Statement) (us : List Token) :
    peek (s.print ++ us) ≠ .symbol .semicolon ∧ peek (s.print ++ us) ≠ .symbol .rBrace ∧
      peek (s.print ++ us) ≠ .eof := by
  cases s with
  | declare name e => exact ⟨nofun, nofun, nofun⟩
  | give e => exact ⟨nofun, nofun, nofun⟩
  | expression e =>
    have hb := peek_print e us
    exact ⟨ne_of_begins hb rfl, ne_of_begins hb rfl, ne_of_begins hb rfl⟩

/-- A semicolon before statements is passed over. -/
theorem Reads.semicolon {ts rest : List Token} {ss : List Statement} {k : Nat}
    (h : Reads .statements ts ss rest k) :
    Reads .statements (.symbol .semicolon :: ts) ss rest k := by
  cases h with
  | noStatement h => exact .noStatement h
  | oneStatement hb he h h' => exact .oneStatement hb he h h'

theorem printedBlock_cons {s : Statement} {ss : List Statement} (h : PrintedStatement s)
    (hs : PrintedBlock ss) : PrintedBlock (s :: ss) := by
  intro us
  obtain ⟨k', hk', hr'⟩ := hs us
  obtain ⟨k, hk, hr⟩ := h (printStatements ss ++ .symbol .rBrace :: us)
  obtain ⟨hsemi, hbrace, heof⟩ :=
    peek_statement s (.symbol .semicolon :: (printStatements ss ++ .symbol .rBrace :: us))
  have hskip := skipSemicolons_of_peek hsemi
  refine ⟨max k k', by simp only [nodesOfBlock] at *; omega, ?_⟩
  rw [← hskip] at hr hbrace heof
  simpa [printStatements] using Reads.oneStatement hbrace heof hr hr'.semicolon

theorem printedBody_block {ss : List Statement} (h : PrintedBlock ss) : PrintedBody (.block ss) := by
  intro params us hus
  obtain ⟨k, hk, hr⟩ := h us
  refine ⟨k + 1, by simp only [Expr.nodes, Body.nodes]; omega, ?_⟩
  have := Reads.arrowBlock (arrowHead_paramTokens params _) (.braces hr)
  simpa [Expr.print, Body.print] using this

theorem printedBody_expr {e : Expr} (h : Printed e) : PrintedBody (.expr e) := by
  intro params us hus
  cases hblock : beginsBlock e.print with
  | true =>
    have hname : ∀ name, e ≠ .identifier name := by
      rintro name rfl
      cases hblock
    obtain ⟨k, hk, hr⟩ := h.parenthesised_atom us
    have hbody := Reads.noFunction (by simp [peek, parenthesised])
      (not_arrowHead_parenthesised hname us)
      (.unconditional ((hr.toUnary rfl (not_links_of_closes hus)).toLevel
        fun m _ => operatorAt?_of_closes hus m) (ne_of_closes hus rfl))
    have := Reads.arrowExpr (arrowHead_paramTokens params _) (by simp [peek, parenthesised]) hbody
    refine ⟨k + 1 + 1, by simp only [Expr.nodes, Body.nodes]; omega, ?_⟩
    simpa [Expr.print, Body.print, hblock] using this
  | false =>
    obtain ⟨k, hk, hr⟩ := h.expression us hus
    have hne : peek (e.print ++ us) ≠ .symbol .lBrace := by
      obtain ⟨t, ts, hprint, -⟩ := e.print_begins
      rw [hprint] at hblock ⊢
      rw [← Bool.not_eq_true, beginsBlock_iff] at hblock
      exact hblock
    have := Reads.arrowExpr (arrowHead_paramTokens params _) hne hr
    refine ⟨k + 1, by simp only [Expr.nodes, Body.nodes]; omega, ?_⟩
    simpa [Expr.print, Body.print, hblock] using this

/-! ### Every expression -/

section Constructors

variable {e left right key condition yes no : Expr} {es : List Expr}

/-- A token that is an expression by itself. -/
theorem printed_literal {t : Token} (hl : literal? t = some e) (hp : e.print = [t]) : Printed e := by
  have hn : e.nodes = 1 ∧ e.grade = 0 := by
    unfold literal? at hl
    split at hl <;> cases hl <;> exact ⟨rfl, rfl⟩
  refine printed_of (fun _ => ?_) (by omega) (by omega) (by omega)
  intro us y rest k' hy
  rw [hp]
  exact ⟨max 0 k', by omega, .operand (.literal hl) hy⟩

/-- Behind anything but a name, no parenthesis goes on with an operand. -/
theorem Reads.peek_ne_lParen {x y : Expr} {us rest : List Token} {k : Nat}
    (h : Reads (.links x) us y rest k) (hx : ∀ name, x ≠ .identifier name) :
    peek us ≠ .symbol .lParen := by
  cases h with
  | linksEnd h => exact fun hp => h (.inr (.inr hp))
  | member | methodCall | index => exact nofun
  | call => exact absurd rfl (hx _)

theorem printed_member {name : String} (h : Printed e) : Printed (.member e name) := by
  refine printed_of (fun _ => ?_) nofun nofun nofun
  intro us y rest k' hy
  obtain ⟨k, hk, hr⟩ := h.placed_spine (.member (hy.peek_ne_lParen nofun) hy)
  refine ⟨k, by simp only [Expr.nodes]; omega, ?_⟩
  simpa [Expr.print] using hr

theorem printed_index (h : Printed e) (hkey : Printed key) : Printed (.index e key) := by
  refine printed_of (fun _ => ?_) nofun nofun nofun
  intro us y rest k' hy
  obtain ⟨kk, hkk, hrk⟩ := hkey.expression (.symbol .rBracket :: us) rfl
  obtain ⟨k, hk, hr⟩ := h.placed_spine (.index hrk hy)
  refine ⟨k, by simp only [Expr.nodes]; omega, ?_⟩
  simpa [Expr.print] using hr

theorem printed_call {callee : String} (hs : PrintedAll es) : Printed (.call callee es) := by
  refine printed_of (fun _ => ?_) nofun nofun nofun
  intro us y rest k' hy
  obtain ⟨ka, hka, hra⟩ := hs .rParen us rfl nofun
  refine ⟨max 0 (max ka k' + 1), by simp only [Expr.nodes]; omega, ?_⟩
  simpa [Expr.print] using Reads.operand (.literal rfl) (.call hra hy)

theorem printed_methodCall {method : String} (h : Printed e) (hs : PrintedAll es) :
    Printed (.methodCall e method es) := by
  refine printed_of (fun _ => ?_) nofun nofun nofun
  intro us y rest k' hy
  obtain ⟨ka, hka, hra⟩ := hs .rParen us rfl nofun
  obtain ⟨k, hk, hr⟩ := h.placed_spine (.methodCall hra hy)
  refine ⟨k, by simp only [Expr.nodes]; omega, ?_⟩
  simpa [Expr.print] using hr

theorem printed_array (hs : PrintedAll es) : Printed (.array es) := by
  refine printed_of (fun _ => ?_) nofun nofun nofun
  intro us y rest k' hy
  obtain ⟨k, hk, hr⟩ := hs .rBracket us rfl nofun
  refine ⟨max k k', by simp only [Expr.nodes]; omega, ?_⟩
  simpa [Expr.print] using Reads.operand (.array hr) hy

theorem printed_object {fs : List (String × Expr)} (hs : PrintedFields fs) :
    Printed (.object fs) := by
  refine printed_of (fun _ => ?_) nofun nofun nofun
  intro us y rest k' hy
  obtain ⟨k, hk, hr⟩ := hs us
  refine ⟨max k k', by simp only [Expr.nodes]; omega, ?_⟩
  simpa [Expr.print] using Reads.operand (.object hr) hy

theorem printed_unary {op : UnaryOp} (h : Printed e) : Printed (.unary op e) := by
  refine printed_of nofun (fun _ => ?_) nofun nofun
  intro us hus
  obtain ⟨k, hk, hr⟩ := h.placed_level (Nat.zero_le _) hus
  cases hr with
  | tightest hr =>
    exact ⟨k + 1, by simp only [Expr.nodes]; omega,
      .tightest (.operator (unaryOperator?_symbol op) hr)⟩

theorem printed_binary {op : BinaryOp} (hl : Printed left) (hr : Printed right) :
    Printed (.binary op left right) := by
  have hlevel := op.level_lt
  refine printed_of nofun nofun (fun n hn hg => ?_) (fun h => ?_)
  · obtain rfl : op.level = n := Nat.add_right_cancel hg
    intro us y rest k' hus hy
    obtain ⟨kr, hkr, hrr⟩ := hr.placed_level (Nat.le_of_lt hn) hus
    obtain ⟨k, hk, hrl⟩ := hl.placed_chain hn (stops_symbol op _)
      (.chain (operatorAt?_symbol op) hrr hy)
    refine ⟨k, by simp only [Expr.nodes]; omega, ?_⟩
    simpa [Expr.print] using hrl
  · simp only [Expr.grade] at h
    omega

theorem printed_conditional (hc : Printed condition) (hy : Printed yes) (hn : Printed no) :
    Printed (.conditional condition yes no) := by
  refine printed_of nofun nofun (fun n hn hg => ?_) (fun _ => ?_)
  · simp only [Expr.grade] at hg
    omega
  · intro us hus
    obtain ⟨kn, hkn, hrn⟩ := hn.expression us hus
    obtain ⟨ky, hky, hry⟩ := hy.expression (.symbol .colon :: (no.print ++ us)) rfl
    obtain ⟨k, hk, hr⟩ := hc.placed_level (Nat.le_refl levels)
      (stops_question (yes.print ++ .symbol .colon :: (no.print ++ us)))
    refine ⟨max k (max ky kn) + 1, by simp only [Expr.nodes]; omega,
      expression_of_conditional (Nat.le_refl _) hus ?_⟩
    simpa [Expr.print] using Reads.choice hr hry hrn

theorem printed_function {params : List String} {b : Body} (h : PrintedBody b) :
    Printed (.function params b) := by
  refine printed_of nofun nofun (fun n hn hg => ?_) (fun _ => h params)
  simp only [Expr.grade] at hg
  omega

end Constructors

mutual

/-- Every expression is read from its print, in every place that its grade allows. -/
theorem Expr.printed : (e : Expr) → Printed e
  | .float _ | .integer _ | .string _ | .boolean _ | .null | .identifier _ => printed_literal rfl rfl
  | .member o _ => printed_member o.printed
  | .index o key => printed_index o.printed key.printed
  | .unary _ e => printed_unary e.printed
  | .binary _ left right => printed_binary left.printed right.printed
  | .conditional condition yes no => printed_conditional condition.printed yes.printed no.printed
  | .call _ args => printed_call (printed_all args)
  | .methodCall o _ args => printed_methodCall o.printed (printed_all args)
  | .function _ body => printed_function body.printed
  | .object fs => printed_object (printed_fields fs)
  | .array items => printed_array (printed_all items)

theorem Body.printed : (b : Body) → PrintedBody b
  | .expr e => printedBody_expr e.printed
  | .block ss => printedBody_block (printed_block ss)

theorem Statement.printed : (s : Statement) → PrintedStatement s
  | .declare _ e => printedStatement_declare e.printed
  | .give e => printedStatement_give e.printed
  | .expression e => printedStatement_expression e.printed

theorem printed_all : (es : List Expr) → PrintedAll es
  | [] => printedAll_nil
  | e :: es => printedAll_cons e.printed (printed_all es)

theorem printed_fields : (fs : List (String × Expr)) → PrintedFields fs
  | [] => printedFields_nil
  | (_, e) :: fs => printedFields_cons e.printed (printed_fields fs)

theorem printed_block : (ss : List Statement) → PrintedBlock ss
  | [] => printedBlock_nil
  | s :: ss => printedBlock_cons s.printed (printed_block ss)

end

/-- The tokens of a printed expression are parsed as the expression, or are nested too deeply; up to
forty nodes they are not. -/
theorem parseTokens_print (e : Expr) (ts : Tokens) (h : ts.map Prod.fst = e.print ++ [.eof]) :
    (parseTokens ts = .ok e ∨ ∃ p, parseTokens ts = .error (.tooDeep p)) ∧
      (e.nodes ≤ 40 → parseTokens ts = .ok e) := by
  obtain ⟨k, hk, hr⟩ := e.printed.expression [.eof] rfl
  rw [← h] at hr
  rcases parseTokens_of_reads hr rfl with ⟨-, x, hx, rfl⟩ | ⟨hfits, hdeep⟩
  · exact ⟨.inl hx, fun _ => hx⟩
  · refine ⟨.inr hdeep, fun hn => absurd (.inr ?_) hfits⟩
    unfold maxDepth
    omega

/-- `(a + b) * f(c)`: the sum needs its parentheses, and is read again behind them. -/
theorem parseTokens_print_product :
    parseTokens ([.symbol .lParen, .identifier "a", .symbol .plus, .identifier "b", .symbol .rParen,
      .symbol .star, .identifier "f", .symbol .lParen, .identifier "c", .symbol .rParen,
      .eof].map (·, 0)) =
    .ok (.binary (.arith .multiply)
      (.binary (.arith .add) (.identifier "a") (.identifier "b"))
      (.call "f" [.identifier "c"])) :=
  (parseTokens_print _ _ rfl).2 (by decide)

end LiveNotes.Script
