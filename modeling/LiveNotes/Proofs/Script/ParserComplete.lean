import LiveNotes.Proofs.Script.ParserSound

/-!
What the grammar reads, the parser reads too, or it is too deep: there is no other error, and it is
the depth alone that decides between the two.

* `Gives r fits post`: `r` succeeds with a result that fulfils `post` if `fits` holds, and is too deep
  if not;
* `Complete g ts x rest k`: at every cursor before the tokens `ts`, the reader for `g` gives `x` and
  leaves `rest`, provided that the depth there leaves room for `k` levels;
* `Reads.complete`: the grammar reads nothing else, by induction on its rules;
* `parseTokens_of_reads`: the same for a whole list of tokens.
-/

namespace LiveNotes.Script

/-! ### Results that depend on the depth alone -/

/-- Success with a certain result if something fits, and an expression nested too deeply if not. -/
def Gives {α : Type} (r : Except SyntaxError α) (fits : Prop) (post : α → Prop) : Prop :=
  (fits ∧ ∃ a, r = .ok a ∧ post a) ∨ (¬ fits ∧ ∃ p, r = .error (.tooDeep p))

section Rules

variable {α β : Type} {fits fits' : Prop}

theorem gives_pure {a : α} {post : α → Prop} (h : post a) : Gives (pure a) True post :=
  .inl ⟨trivial, a, rfl, h⟩

theorem gives_ok {a : α} {post : α → Prop} (h : post a) : Gives (.ok a) True post :=
  .inl ⟨trivial, a, rfl, h⟩

/-- One step after the other: both have to fit. -/
theorem Gives.bind {r : Except SyntaxError α} {f : α → Except SyntaxError β} {post : α → Prop}
    {post' : β → Prop} (hr : Gives r fits post) (hf : ∀ a, post a → Gives (f a) fits' post') :
    Gives (r >>= f) (fits ∧ fits') post' := by
  rcases hr with ⟨h, a, rfl, ha⟩ | ⟨h, p, rfl⟩
  · rcases hf a ha with ⟨h', hb⟩ | ⟨h', hp⟩
    · exact .inl ⟨⟨h, h'⟩, hb⟩
    · exact .inr ⟨fun hc => h' hc.2, hp⟩
  · exact .inr ⟨fun hc => h hc.1, p, rfl⟩

theorem Gives.congr {r : Except SyntaxError α} {post : α → Prop} (hr : Gives r fits post)
    (h : fits' ↔ fits) : Gives r fits' post := by
  unfold Gives
  rw [h]
  exact hr

/-- The last step but for putting the result together. -/
theorem Gives.map {r : Except SyntaxError α} {f : α → Except SyntaxError β} {post : α → Prop}
    {post' : β → Prop} (hr : Gives r fits post) (hf : ∀ a, post a → Gives (f a) True post') :
    Gives (r >>= f) fits post' :=
  (hr.bind hf).congr (by rw [and_true])

/-- A first step that always fits. -/
theorem Gives.after {r : Except SyntaxError α} {f : α → Except SyntaxError β} {post : α → Prop}
    {post' : β → Prop} (hr : Gives r True post) (hf : ∀ a, post a → Gives (f a) fits post') :
    Gives (r >>= f) fits post' :=
  (hr.bind hf).congr (by rw [true_and])

end Rules

/-- There is room for so many levels below a depth; reading that stays at its level needs none. -/
def Fits (depth k : Nat) : Prop := k = 0 ∨ depth + k ≤ maxDepth

theorem fits_zero {d : Nat} : Fits d 0 ↔ True := by
  simp [Fits]

theorem fits_succ {d k : Nat} : Fits d (k + 1) ↔ d + 1 ≤ maxDepth ∧ Fits (d + 1) k := by
  unfold Fits
  omega

theorem fits_max {d k k' : Nat} : Fits d (max k k') ↔ Fits d k ∧ Fits d k' := by
  unfold Fits
  omega

/-! ### Single steps -/

namespace Cursor

variable {c : Cursor} {t : Token} {ts : List Token}

theorem token_of_kinds (h : c.kinds = t :: ts) : c.token = t := by
  rw [token_eq_peek, h]
  rfl

theorem next_of_kinds (h : c.kinds = t :: ts) : c.next.kinds = ts := by
  obtain ⟨_ | ⟨⟨t', p⟩, rest⟩, d⟩ := c
  · cases h
  · exact (List.cons.inj h).2

theorem sees_of_kinds {s : Symbol} (h : c.kinds = .symbol s :: ts) : c.sees s = true :=
  sees_iff.mpr (token_of_kinds h)

theorem not_sees {s : Symbol} (h : peek c.kinds ≠ .symbol s) : ¬ c.sees s = true := by
  rw [sees_iff, token_eq_peek]
  exact h

end Cursor

section Steps

variable {c : Cursor} {d : Nat} {ts : List Token}

theorem descend_gives (hk : c.kinds = ts) (hd : c.depth = d) :
    Gives (descend c) (d + 1 ≤ maxDepth) fun e => e.1.kinds = ts ∧ e.1.depth = d + 1 := by
  unfold descend
  split
  · exact .inr ⟨by omega, _, rfl⟩
  · exact .inl ⟨by omega, _, rfl, hk, congrArg (· + 1) hd⟩

theorem expect_gives {s : Symbol} (hk : c.kinds = .symbol s :: ts) (hd : c.depth = d) :
    Gives (expect s c) True fun r => r.after.kinds = ts ∧ r.after.depth = d := by
  unfold expect
  rw [dif_pos (Cursor.sees_of_kinds hk)]
  exact gives_ok ⟨Cursor.next_of_kinds hk, hd⟩

theorem expectName_gives {name : String} (hk : c.kinds = .identifier name :: ts) (hd : c.depth = d) :
    Gives (expectName c) True fun r =>
      r.value = name ∧ r.after.kinds = ts ∧ r.after.depth = d := by
  have ht := Cursor.token_of_kinds hk
  unfold expectName
  split
  · next name' hn =>
    rw [ht] at hn
    cases hn
    exact gives_ok ⟨rfl, Cursor.next_of_kinds hk, hd⟩
  · next hn => exact absurd ht (hn name)

theorem paramList_gives {params : List String} (hk : c.kinds = paramTokens params ++ ts)
    (hd : c.depth = d) : Gives (paramList c) True fun r =>
      r.value = params ∧ r.after.kinds = ts ∧ r.after.depth = d := by
  unfold paramList
  have hk : c.kinds = .symbol .lParen :: (nameTokens params ++ .symbol .rParen :: ts) := by
    rw [hk]
    simp [paramTokens]
  refine (expect_gives hk hd).after ?_
  rintro ⟨⟨⟩, e, he⟩ ⟨hke, hde⟩
  dsimp only at hke hde ⊢
  split
  · next hs =>
    have hempty : params = [] := by
      rw [Cursor.kinds_of_sees hs] at hke
      rcases params with _ | ⟨name, _ | ⟨name', names⟩⟩
      · rfl
      · cases hke
      · cases hke
    subst hempty
    exact gives_pure ⟨rfl, Cursor.next_of_kinds hke, hde⟩
  · next hs =>
    have hne : params ≠ [] := by
      rintro rfl
      exact hs (Cursor.sees_of_kinds hke)
    obtain ⟨rest, hr, hrest⟩ := paramNames_names e.depth [] hne hke
    split
    · next he' =>
      rw [hr] at he'
      cases he'
    · next names rest' hp =>
      rw [hr] at hp
      cases hp
      exact gives_pure ⟨rfl, hrest, hde⟩

end Steps

/-! ### Readers -/

/-- At every cursor before the tokens `ts`, the reader for a goal gives `x` and leaves `rest`, if `k`
more levels fit. The readers of links and chains leave the depth to the one that called them. -/
def Complete : (g : Goal) → List Token → g.Result → List Token → Nat → Prop
  | .expression, ts, x, rest, k => ∀ ⦃c d⦄, c.kinds = ts → c.depth = d →
    Gives (expression c) (Fits d k) fun r => r.value = x ∧ r.after.kinds = rest ∧ r.after.depth = d
  | .functionTail, ts, x, rest, k => ∀ ⦃c d⦄, c.kinds = ts → c.depth = d →
    Gives (functionTail c) (Fits d k) fun r => r.value = x ∧ r.after.kinds = rest ∧ r.after.depth = d
  | .block, ts, ss, rest, k => ∀ ⦃c d⦄, c.kinds = ts → c.depth = d →
    Gives (block c) (Fits d k) fun r => r.value = ss ∧ r.after.kinds = rest ∧ r.after.depth = d
  | .statements, ts, ss, rest, k => ∀ ⦃done c d⦄, c.kinds = ts → c.depth = d →
    Gives (statementsFrom done c) (Fits d k) fun r =>
      r.value = done.reverse ++ ss ∧ r.after.kinds = rest ∧ r.after.depth = d
  | .statement, ts, s, rest, k => ∀ ⦃c d⦄, c.kinds = ts → c.depth = d →
    Gives (statement c) (Fits d k) fun r => r.value = s ∧ r.after.kinds = rest ∧ r.after.depth = d
  | .conditional, ts, x, rest, k => ∀ ⦃c d⦄, c.kinds = ts → c.depth = d →
    Gives (conditional c) (Fits d k) fun r => r.value = x ∧ r.after.kinds = rest ∧ r.after.depth = d
  | .level n, ts, x, rest, k => ∀ ⦃hl c d⦄, c.kinds = ts → c.depth = d →
    Gives (binaryLevel n hl c) (Fits d k) fun r =>
      r.value = x ∧ r.after.kinds = rest ∧ r.after.depth = d
  | .chain n left, ts, x, rest, k => ∀ ⦃hl c d⦄, c.kinds = ts → c.depth = d →
    Gives (chain n hl left c) (Fits d k) fun r => r.value = x ∧ r.after.kinds = rest
  | .unary, ts, x, rest, k => ∀ ⦃c d⦄, c.kinds = ts → c.depth = d →
    Gives (unary c) (Fits d k) fun r => r.value = x ∧ r.after.kinds = rest ∧ r.after.depth = d
  | .operand, ts, x, rest, k => ∀ ⦃c d⦄, c.kinds = ts → c.depth = d →
    Gives (operand c) (Fits d k) fun r => r.value = x ∧ r.after.kinds = rest ∧ r.after.depth = d
  | .links x, ts, y, rest, k => ∀ ⦃c d⦄, c.kinds = ts → c.depth = d →
    Gives (links x c) (Fits d k) fun r => r.value = y ∧ r.after.kinds = rest
  | .elements close, ts, xs, rest, k => ∀ ⦃done c d⦄, c.kinds = ts → c.depth = d →
    Gives (elements close done c) (Fits d k) fun r =>
      r.value = done.reverse ++ xs ∧ r.after.kinds = rest ∧ r.after.depth = d
  | .fields, ts, xs, rest, k => ∀ ⦃done c d⦄, c.kinds = ts → c.depth = d →
    Gives (fields done c) (Fits d k) fun r =>
      r.value = done.reverse ++ xs ∧ r.after.kinds = rest ∧ r.after.depth = d
  | .fieldValue name, ts, x, rest, k => ∀ ⦃c d⦄, c.kinds = ts → c.depth = d →
    Gives (fieldValue name c) (Fits d k) fun r =>
      r.value = x ∧ r.after.kinds = rest ∧ r.after.depth = d
  | .atom, ts, x, rest, k => ∀ ⦃c d⦄, c.kinds = ts → c.depth = d →
    Gives (atom c) (Fits d k) fun r => r.value = x ∧ r.after.kinds = rest ∧ r.after.depth = d

section Functions

variable {ts body mid rest : List Token} {params : List String} {x : Expr} {ss : List Statement}
  {s : Statement} {k k' : Nat}

theorem complete_wordFunction (h : Complete .functionTail ts x rest k) :
    Complete .expression (.functionWord :: ts) x rest (k + 1) := by
  intro c d hk hd
  rw [expression]
  refine ((descend_gives hk hd).bind ?_).congr fits_succ
  rintro ⟨e, he⟩ ⟨hke, hde⟩
  dsimp only at hke hde ⊢
  split
  · refine (h (Cursor.next_of_kinds hke) hde).map ?_
    rintro ⟨y, f, hf⟩ ⟨rfl, hkf, -⟩
    exact gives_pure ⟨rfl, hkf, hd⟩
  · next hw => exact absurd (Cursor.token_of_kinds hke) hw

/-- An arrow function does not begin with the word `function`. -/
theorem ArrowHead.peek_ne (h : ArrowHead ts params body) : peek ts ≠ .functionWord := by
  obtain ⟨name, -, rfl⟩ | rfl := h
  · exact nofun
  · exact nofun

theorem complete_arrowBlock (ha : ArrowHead ts params body) (h : Complete .block body ss rest k)
    (hb : peek body = .symbol .lBrace) :
    Complete .expression ts (.function params (.block ss)) rest (k + 1) := by
  intro c d hk hd
  rw [expression]
  refine ((descend_gives hk hd).bind ?_).congr fits_succ
  rintro ⟨e, he⟩ ⟨hke, hde⟩
  dsimp only at hke hde ⊢
  rw [← hke] at ha
  obtain ⟨tail, hp, hbody⟩ := arrowParams?_of_arrowHead ha
  split
  · next hw =>
    rw [Cursor.token_eq_peek] at hw
    exact absurd hw ha.peek_ne
  · split
    · next params' tail' hp' =>
      rw [hp] at hp'
      cases hp'
      have hs : (e.withRest tail).sees .lBrace = true := by
        rw [Cursor.sees_iff, Cursor.token_eq_peek, Cursor.kinds_withRest, hbody]
        exact hb
      rw [if_pos hs]
      refine (h (c := e.withRest tail) hbody hde).map ?_
      rintro ⟨y, f, hf⟩ ⟨rfl, hkf, -⟩
      exact gives_pure ⟨rfl, hkf, hd⟩
    · next hp' =>
      rw [hp] at hp'
      cases hp'

theorem complete_arrowExpr (ha : ArrowHead ts params body) (hb : peek body ≠ .symbol .lBrace)
    (h : Complete .expression body x rest k) :
    Complete .expression ts (.function params (.expr x)) rest (k + 1) := by
  intro c d hk hd
  rw [expression]
  refine ((descend_gives hk hd).bind ?_).congr fits_succ
  rintro ⟨e, he⟩ ⟨hke, hde⟩
  dsimp only at hke hde ⊢
  rw [← hke] at ha
  obtain ⟨tail, hp, hbody⟩ := arrowParams?_of_arrowHead ha
  split
  · next hw =>
    rw [Cursor.token_eq_peek] at hw
    exact absurd hw ha.peek_ne
  · split
    · next params' tail' hp' =>
      rw [hp] at hp'
      cases hp'
      have hs : ¬ (e.withRest tail).sees .lBrace = true :=
        Cursor.not_sees (by rw [Cursor.kinds_withRest, hbody]; exact hb)
      rw [if_neg hs]
      refine (h (c := e.withRest tail) hbody hde).map ?_
      rintro ⟨y, f, hf⟩ ⟨rfl, hkf, -⟩
      exact gives_pure ⟨rfl, hkf, hd⟩
    · next hp' =>
      rw [hp] at hp'
      cases hp'

theorem complete_noFunction (hw : peek ts ≠ .functionWord)
    (ha : ∀ params body, ¬ ArrowHead ts params body) (h : Complete .conditional ts x rest k) :
    Complete .expression ts x rest (k + 1) := by
  intro c d hk hd
  rw [expression]
  refine ((descend_gives hk hd).bind ?_).congr fits_succ
  rintro ⟨e, he⟩ ⟨hke, hde⟩
  dsimp only at hke hde ⊢
  rw [← hke] at hw ha
  split
  · next hw' =>
    rw [Cursor.token_eq_peek] at hw'
    exact absurd hw' hw
  · split
    · next params tail hp => exact absurd (arrowParams?_some hp) (ha _ _)
    · refine (h hke hde).map ?_
      rintro ⟨y, f, hf⟩ ⟨rfl, hkf, -⟩
      exact gives_pure ⟨rfl, hkf, hd⟩

theorem complete_named {name : String} (h : Complete .block ts ss rest k) :
    Complete .functionTail (.identifier name :: (paramTokens params ++ ts))
      (.function params (.block ss)) rest k := by
  intro c d hk hd
  rw [functionTail]
  split
  · refine (paramList_gives (Cursor.next_of_kinds hk) hd).after ?_
    rintro ⟨params', e, he⟩ ⟨rfl, hke, hde⟩
    refine (h hke hde).map ?_
    rintro ⟨ss', f, hf⟩ ⟨rfl, hkf, hdf⟩
    exact gives_pure ⟨rfl, hkf, hdf⟩
  · next hn => exact absurd (Cursor.token_of_kinds hk) (hn name)

theorem complete_nameless (h : Complete .block ts ss rest k) :
    Complete .functionTail (paramTokens params ++ ts) (.function params (.block ss)) rest k := by
  intro c d hk hd
  rw [functionTail]
  split
  · next name hn =>
    rw [Cursor.token_of_kinds hk] at hn
    cases hn
  · refine (paramList_gives hk hd).after ?_
    rintro ⟨params', e, he⟩ ⟨rfl, hke, hde⟩
    refine (h hke hde).map ?_
    rintro ⟨ss', f, hf⟩ ⟨rfl, hkf, hdf⟩
    exact gives_pure ⟨rfl, hkf, hdf⟩

theorem complete_braces (h : Complete .statements ts ss rest k) :
    Complete .block (.symbol .lBrace :: ts) ss rest k := by
  intro c d hk hd
  rw [block]
  refine (expect_gives hk hd).after ?_
  rintro ⟨⟨⟩, e, he⟩ ⟨hke, hde⟩
  refine (h hke hde).map ?_
  rintro ⟨ss', f, hf⟩ ⟨rfl, hkf, hdf⟩
  exact gives_pure ⟨rfl, hkf, hdf⟩

end Functions

section Statements

variable {ts mid rest : List Token} {name : String} {x : Expr} {s : Statement} {ss : List Statement}
  {k k' : Nat}

theorem complete_noStatement (h : skipSemicolons ts = .symbol .rBrace :: rest) :
    Complete .statements ts [] rest 0 := by
  intro done c d hk hd
  have hskip : c.behindSemicolons.kinds = .symbol .rBrace :: rest := by
    rw [Cursor.kinds_behindSemicolons, hk, h]
  rw [statementsFrom, dif_pos (Cursor.sees_of_kinds hskip)]
  exact (gives_pure ⟨by simp, Cursor.next_of_kinds hskip, hd⟩).congr fits_zero

theorem complete_oneStatement (hb : peek (skipSemicolons ts) ≠ .symbol .rBrace)
    (he : peek (skipSemicolons ts) ≠ .eof) (h : Complete .statement (skipSemicolons ts) s mid k)
    (h' : Complete .statements mid ss rest k') :
    Complete .statements ts (s :: ss) rest (max k k') := by
  intro done c d hk hd
  have hskip : c.behindSemicolons.kinds = skipSemicolons ts := by
    rw [Cursor.kinds_behindSemicolons, hk]
  rw [← hskip] at hb he
  rw [statementsFrom, dif_neg (Cursor.not_sees hb)]
  dsimp only
  split
  · next he' =>
    rw [Cursor.token_eq_peek] at he'
    exact absurd he' he
  · refine ((h hskip hd).bind ?_).congr fits_max
    rintro ⟨s', e, hlt⟩ ⟨rfl, hke, hde⟩
    refine (h' hke hde).map ?_
    rintro ⟨ss', f, hf⟩ ⟨hss, hkf, hdf⟩
    exact gives_pure ⟨by simpa using hss, hkf, hdf⟩

theorem complete_declare (h : Complete .expression ts x rest k) :
    Complete .statement (.declareWord :: .identifier name :: .symbol .assign :: ts) (.declare name x)
      rest k := by
  intro c d hk hd
  rw [statement]
  split
  · refine (expectName_gives (Cursor.next_of_kinds hk) hd).after ?_
    rintro ⟨name', e, he⟩ ⟨rfl, hke, hde⟩
    dsimp only at hke hde ⊢
    rw [dif_pos (Cursor.sees_of_kinds hke)]
    refine (h (Cursor.next_of_kinds hke) hde).map ?_
    rintro ⟨y, f, hf⟩ ⟨rfl, hkf, hdf⟩
    exact gives_pure ⟨rfl, hkf, hdf⟩
  · next hr =>
    rw [Cursor.token_of_kinds hk] at hr
    cases hr
  · next hn _ => exact absurd (Cursor.token_of_kinds hk) hn

theorem complete_declareOnly (h : peek rest ≠ .symbol .assign) :
    Complete .statement (.declareWord :: .identifier name :: rest) (.declare name .null) rest 0 := by
  intro c d hk hd
  rw [statement]
  split
  · refine ((expectName_gives (Cursor.next_of_kinds hk) hd).after ?_).congr fits_zero
    rintro ⟨name', e, he⟩ ⟨rfl, hke, hde⟩
    dsimp only at hke hde ⊢
    rw [← hke] at h
    rw [dif_neg (Cursor.not_sees h)]
    exact gives_pure ⟨rfl, hke, hde⟩
  · next hr =>
    rw [Cursor.token_of_kinds hk] at hr
    cases hr
  · next hn _ => exact absurd (Cursor.token_of_kinds hk) hn

theorem complete_giveNothing (h : endsReturn (peek rest) = true) :
    Complete .statement (.returnWord :: rest) (.give .null) rest 0 := by
  intro c d hk hd
  rw [statement]
  split
  · next hr =>
    rw [Cursor.token_of_kinds hk] at hr
    cases hr
  · have he : endsReturn c.next.token = true := by
      rw [Cursor.token_eq_peek, Cursor.next_of_kinds hk, h]
    rw [if_pos he]
    exact (gives_pure ⟨rfl, Cursor.next_of_kinds hk, hd⟩).congr fits_zero
  · next _ hn => exact absurd (Cursor.token_of_kinds hk) hn

theorem complete_give (he : endsReturn (peek ts) = false) (h : Complete .expression ts x rest k) :
    Complete .statement (.returnWord :: ts) (.give x) rest k := by
  intro c d hk hd
  rw [statement]
  split
  · next hr =>
    rw [Cursor.token_of_kinds hk] at hr
    cases hr
  · have he' : ¬ endsReturn c.next.token = true := by
      rw [Cursor.token_eq_peek, Cursor.next_of_kinds hk, he]
      exact nofun
    rw [if_neg he']
    refine (h (Cursor.next_of_kinds hk) hd).map ?_
    rintro ⟨y, f, hf⟩ ⟨rfl, hkf, hdf⟩
    exact gives_pure ⟨rfl, hkf, hdf⟩
  · next _ hn => exact absurd (Cursor.token_of_kinds hk) hn

theorem complete_bare (hd' : peek ts ≠ .declareWord) (hr' : peek ts ≠ .returnWord)
    (h : Complete .expression ts x rest k) : Complete .statement ts (.expression x) rest k := by
  intro c d hk hd
  rw [← hk, ← Cursor.token_eq_peek] at hd' hr'
  rw [statement]
  split
  · next hn => exact absurd hn hd'
  · next hn => exact absurd hn hr'
  · refine (h hk hd).map ?_
    rintro ⟨y, f, hf⟩ ⟨rfl, hkf, hdf⟩
    exact gives_pure ⟨rfl, hkf, hdf⟩

end Statements

section Operators

variable {ts ts' ts'' mid rest : List Token} {t : Token} {n : Nat} {x y yes no left right : Expr}
  {k k' k'' : Nat}

theorem complete_unconditional (h : Complete (.level levels) ts x rest k)
    (hq : peek rest ≠ .symbol .question) : Complete .conditional ts x rest k := by
  intro c d hk hd
  rw [conditional]
  refine (h hk hd).map ?_
  rintro ⟨y, e, he⟩ ⟨rfl, hke, hde⟩
  dsimp only at hke hde ⊢
  rw [← hke] at hq
  rw [dif_neg (Cursor.not_sees hq)]
  exact gives_pure ⟨rfl, hke, hde⟩

theorem complete_choice (h : Complete (.level levels) ts x (.symbol .question :: ts') k)
    (hy : Complete .expression ts' yes (.symbol .colon :: ts'') k')
    (hn : Complete .expression ts'' no rest k'') :
    Complete .conditional ts (.conditional x yes no) rest (max k (max k' k'')) := by
  intro c d hk hd
  rw [conditional]
  refine ((h hk hd).bind ?_).congr fits_max
  rintro ⟨x', e, he⟩ ⟨rfl, hke, hde⟩
  dsimp only at hke hde ⊢
  rw [dif_pos (Cursor.sees_of_kinds hke)]
  refine ((hy (Cursor.next_of_kinds hke) hde).bind ?_).congr fits_max
  rintro ⟨yes', f, hf⟩ ⟨rfl, hkf, hdf⟩
  refine (expect_gives hkf hdf).after ?_
  rintro ⟨⟨⟩, g, hg⟩ ⟨hkg, hdg⟩
  refine (hn hkg hdg).map ?_
  rintro ⟨no', i, hi⟩ ⟨rfl, hki, hdi⟩
  exact gives_pure ⟨rfl, hki, hdi⟩

theorem complete_tightest (h : Complete .unary ts x rest k) : Complete (.level 0) ts x rest k := by
  intro hl c d hk hd
  rw [binaryLevel]
  exact h hk hd

theorem complete_level (h : Complete (.level n) ts left mid k)
    (h' : Complete (.chain n left) mid x rest k') : Complete (.level (n + 1)) ts x rest (max k k') := by
  intro hl c d hk hd
  rw [binaryLevel]
  refine ((h hk hd).bind ?_).congr fits_max
  rintro ⟨left', e, he⟩ ⟨rfl, hke, hde⟩
  refine (h' hke hde).map ?_
  rintro ⟨x', f, hf⟩ ⟨rfl, hkf⟩
  exact gives_pure ⟨rfl, hkf, hd⟩

theorem complete_chainEnd (h : operatorAt? n (peek rest) = none) :
    Complete (.chain n left) rest left rest 0 := by
  intro hl c d hk hd
  rw [← hk, ← Cursor.token_eq_peek] at h
  rw [chain]
  split
  · exact (gives_pure ⟨rfl, hk⟩).congr fits_zero
  · next op ho =>
    rw [h] at ho
    cases ho

theorem complete_chain {op : BinaryOp} (ho : operatorAt? n t = some op)
    (h : Complete (.level n) ts right mid k)
    (h' : Complete (.chain n (.binary op left right)) mid x rest k') :
    Complete (.chain n left) (t :: ts) x rest (max k k' + 1) := by
  intro hl c d hk hd
  rw [chain]
  split
  · next hn =>
    rw [Cursor.token_of_kinds hk, ho] at hn
    cases hn
  · next op' hn =>
    rw [Cursor.token_of_kinds hk, ho] at hn
    cases hn
    refine ((descend_gives (Cursor.next_of_kinds hk) hd).bind ?_).congr fits_succ
    rintro ⟨e, he⟩ ⟨hke, hde⟩
    refine ((h hke hde).bind ?_).congr fits_max
    rintro ⟨right', f, hf⟩ ⟨rfl, hkf, hdf⟩
    refine (h' hkf hdf).map ?_
    rintro ⟨x', g, hg⟩ ⟨rfl, hkg⟩
    exact gives_pure ⟨rfl, hkg⟩

theorem complete_noOperator (ho : unaryOperator? (peek ts) = none) (h : Complete .operand ts x rest k) :
    Complete .unary ts x rest k := by
  intro c d hk hd
  rw [← hk, ← Cursor.token_eq_peek] at ho
  rw [unary]
  split
  · exact h hk hd
  · next op hn =>
    rw [ho] at hn
    cases hn

theorem complete_operator {op : UnaryOp} (ho : unaryOperator? t = some op)
    (h : Complete .unary ts x rest k) : Complete .unary (t :: ts) (.unary op x) rest (k + 1) := by
  intro c d hk hd
  rw [unary]
  split
  · next hn =>
    rw [Cursor.token_of_kinds hk, ho] at hn
    cases hn
  · next op' hn =>
    rw [Cursor.token_of_kinds hk, ho] at hn
    cases hn
    refine ((descend_gives (Cursor.next_of_kinds hk) hd).bind ?_).congr fits_succ
    rintro ⟨e, he⟩ ⟨hke, hde⟩
    refine (h hke hde).map ?_
    rintro ⟨x', f, hf⟩ ⟨rfl, hkf, -⟩
    exact gives_pure ⟨rfl, hkf, hd⟩

end Operators

section Links

variable {ts mid rest : List Token} {name callee : String} {x y key : Expr} {args : List Expr}
  {k k' : Nat}

theorem complete_operand (h : Complete .atom ts x mid k) (h' : Complete (.links x) mid y rest k') :
    Complete .operand ts y rest (max k k') := by
  intro c d hk hd
  rw [operand]
  refine ((h hk hd).bind ?_).congr fits_max
  rintro ⟨x', e, he⟩ ⟨rfl, hke, hde⟩
  refine (h' hke hde).map ?_
  rintro ⟨y', f, hf⟩ ⟨rfl, hkf⟩
  exact gives_pure ⟨rfl, hkf, hd⟩

theorem complete_linksEnd (h : ¬ Links (peek rest)) : Complete (.links x) rest x rest 0 := by
  intro c d hk hd
  rw [← hk, ← Cursor.token_eq_peek] at h
  rw [links.eq_def]
  split
  · next ht => exact absurd (.inl ht) h
  · next ht => exact absurd (.inr (.inl ht)) h
  · next ht => exact absurd (.inr (.inr ht)) h
  · exact (gives_pure ⟨rfl, hk⟩).congr fits_zero

theorem complete_member (hp : peek ts ≠ .symbol .lParen)
    (h : Complete (.links (.member x name)) ts y rest k) :
    Complete (.links x) (.symbol .dot :: .identifier name :: ts) y rest (k + 1) := by
  intro c d hk hd
  rw [links.eq_def]
  split
  · refine ((descend_gives hk hd).bind ?_).congr fits_succ
    rintro ⟨e, he⟩ ⟨hke, hde⟩
    refine (expectName_gives (Cursor.next_of_kinds hke) hde).after ?_
    rintro ⟨name', f, hf⟩ ⟨rfl, hkf, hdf⟩
    dsimp only at hkf hdf ⊢
    rw [← hkf] at hp
    rw [dif_neg (Cursor.not_sees hp)]
    refine (h hkf hdf).map ?_
    rintro ⟨y', g, hg⟩ ⟨rfl, hkg⟩
    exact gives_pure ⟨rfl, hkg⟩
  · next ht =>
    rw [Cursor.token_of_kinds hk] at ht
    cases ht
  · next ht =>
    rw [Cursor.token_of_kinds hk] at ht
    cases ht
  · next hn _ _ => exact absurd (Cursor.token_of_kinds hk) hn

theorem complete_methodCall {mid : List Token} (h : Complete (.elements .rParen) ts args mid k)
    (h' : Complete (.links (.methodCall x name args)) mid y rest k') :
    Complete (.links x) (.symbol .dot :: .identifier name :: .symbol .lParen :: ts) y rest
      (max k k' + 1) := by
  intro c d hk hd
  rw [links.eq_def]
  split
  · refine ((descend_gives hk hd).bind ?_).congr fits_succ
    rintro ⟨e, he⟩ ⟨hke, hde⟩
    refine (expectName_gives (Cursor.next_of_kinds hke) hde).after ?_
    rintro ⟨name', f, hf⟩ ⟨rfl, hkf, hdf⟩
    dsimp only at hkf hdf ⊢
    rw [dif_pos (Cursor.sees_of_kinds hkf)]
    refine ((h (Cursor.next_of_kinds hkf) hdf).bind ?_).congr fits_max
    rintro ⟨args', g, hg⟩ ⟨rfl, hkg, hdg⟩
    refine (h' hkg hdg).map ?_
    rintro ⟨y', i, hi⟩ ⟨rfl, hki⟩
    exact gives_pure ⟨rfl, hki⟩
  · next ht =>
    rw [Cursor.token_of_kinds hk] at ht
    cases ht
  · next ht =>
    rw [Cursor.token_of_kinds hk] at ht
    cases ht
  · next hn _ _ => exact absurd (Cursor.token_of_kinds hk) hn

theorem complete_index (h : Complete .expression ts key (.symbol .rBracket :: mid) k)
    (h' : Complete (.links (.index x key)) mid y rest k') :
    Complete (.links x) (.symbol .lBracket :: ts) y rest (max k k' + 1) := by
  intro c d hk hd
  rw [links.eq_def]
  split
  · next ht =>
    rw [Cursor.token_of_kinds hk] at ht
    cases ht
  · refine ((descend_gives hk hd).bind ?_).congr fits_succ
    rintro ⟨e, he⟩ ⟨hke, hde⟩
    refine ((h (Cursor.next_of_kinds hke) hde).bind ?_).congr fits_max
    rintro ⟨key', f, hf⟩ ⟨rfl, hkf, hdf⟩
    refine (expect_gives hkf hdf).after ?_
    rintro ⟨⟨⟩, g, hg⟩ ⟨hkg, hdg⟩
    refine (h' hkg hdg).map ?_
    rintro ⟨y', i, hi⟩ ⟨rfl, hki⟩
    exact gives_pure ⟨rfl, hki⟩
  · next ht =>
    rw [Cursor.token_of_kinds hk] at ht
    cases ht
  · next _ hn _ => exact absurd (Cursor.token_of_kinds hk) hn

theorem complete_call (h : Complete (.elements .rParen) ts args mid k)
    (h' : Complete (.links (.call callee args)) mid y rest k') :
    Complete (.links (.identifier callee)) (.symbol .lParen :: ts) y rest (max k k' + 1) := by
  intro c d hk hd
  rw [links.eq_def]
  split
  · next ht =>
    rw [Cursor.token_of_kinds hk] at ht
    cases ht
  · next ht =>
    rw [Cursor.token_of_kinds hk] at ht
    cases ht
  · refine ((descend_gives hk hd).bind ?_).congr fits_succ
    rintro ⟨e, he⟩ ⟨hke, hde⟩
    refine ((h (Cursor.next_of_kinds hke) hde).bind ?_).congr fits_max
    rintro ⟨args', f, hf⟩ ⟨rfl, hkf, hdf⟩
    refine (h' hkf hdf).map ?_
    rintro ⟨y', g, hg⟩ ⟨rfl, hkg⟩
    exact gives_pure ⟨rfl, hkg⟩
  · next _ _ hn => exact absurd (Cursor.token_of_kinds hk) hn

end Links

section Lists

variable {ts mid rest : List Token} {close : Symbol} {t : Token} {name : String} {x : Expr}
  {xs : List Expr} {members : List (String × Expr)} {k k' : Nat}

theorem complete_noElement : Complete (.elements close) (.symbol close :: rest) [] rest 0 := by
  intro done c d hk hd
  rw [elements, dif_pos (Cursor.sees_of_kinds hk)]
  exact (gives_pure ⟨by simp, Cursor.next_of_kinds hk, hd⟩).congr fits_zero

theorem complete_element (hc : peek ts ≠ .symbol close)
    (h : Complete .expression ts x (.symbol .comma :: mid) k)
    (h' : Complete (.elements close) mid xs rest k') :
    Complete (.elements close) ts (x :: xs) rest (max k k') := by
  intro done c d hk hd
  rw [← hk] at hc
  rw [elements, dif_neg (Cursor.not_sees hc)]
  refine ((h hk hd).bind ?_).congr fits_max
  rintro ⟨x', e, he⟩ ⟨rfl, hke, hde⟩
  dsimp only at hke hde ⊢
  rw [dif_pos (Cursor.sees_of_kinds hke)]
  refine (h' (Cursor.next_of_kinds hke) hde).map ?_
  rintro ⟨xs', f, hf⟩ ⟨hxs, hkf, hdf⟩
  exact gives_pure ⟨by simpa using hxs, hkf, hdf⟩

theorem complete_lastElement (hn : close ≠ .comma) (hc : peek ts ≠ .symbol close)
    (h : Complete .expression ts x (.symbol close :: rest) k) :
    Complete (.elements close) ts [x] rest k := by
  intro done c d hk hd
  rw [← hk] at hc
  rw [elements, dif_neg (Cursor.not_sees hc)]
  refine (h hk hd).map ?_
  rintro ⟨x', e, he⟩ ⟨rfl, hke, hde⟩
  dsimp only at hke hde ⊢
  have hcomma : ¬ e.sees .comma = true := by
    rw [Cursor.sees_iff, Cursor.token_of_kinds hke]
    exact fun h => hn (Token.symbol.inj h)
  rw [dif_neg hcomma]
  refine (expect_gives hke hde).after ?_
  rintro ⟨⟨⟩, f, hf⟩ ⟨hkf, hdf⟩
  exact gives_pure ⟨by simp, hkf, hdf⟩

theorem complete_noField : Complete .fields (.symbol .rBrace :: rest) [] rest 0 := by
  intro done c d hk hd
  rw [fields, dif_pos (Cursor.sees_of_kinds hk)]
  exact (gives_pure ⟨by simp, Cursor.next_of_kinds hk, hd⟩).congr fits_zero

/-- A token that names a field closes no object. -/
theorem not_sees_of_fieldName? {c : Cursor} (hk : c.kinds = t :: ts) (hn : fieldName? t = some name) :
    ¬ c.sees .rBrace = true := by
  rw [Cursor.sees_iff, Cursor.token_of_kinds hk]
  rintro rfl
  cases hn

theorem complete_field (hn : fieldName? t = some name)
    (h : Complete (.fieldValue name) ts x (.symbol .comma :: mid) k)
    (h' : Complete .fields mid members rest k') :
    Complete .fields (t :: ts) ((name, x) :: members) rest (max k k') := by
  intro done c d hk hd
  rw [fields, dif_neg (not_sees_of_fieldName? hk hn)]
  split
  · next hf =>
    rw [Cursor.token_of_kinds hk, hn] at hf
    cases hf
  · next name' hf =>
    rw [Cursor.token_of_kinds hk, hn] at hf
    cases hf
    refine ((h (Cursor.next_of_kinds hk) hd).bind ?_).congr fits_max
    rintro ⟨x', e, he⟩ ⟨rfl, hke, hde⟩
    dsimp only at hke hde ⊢
    rw [dif_pos (Cursor.sees_of_kinds hke)]
    refine (h' (Cursor.next_of_kinds hke) hde).map ?_
    rintro ⟨xs', f, hf⟩ ⟨hxs, hkf, hdf⟩
    exact gives_pure ⟨by simpa using hxs, hkf, hdf⟩

theorem complete_lastField (hn : fieldName? t = some name)
    (h : Complete (.fieldValue name) ts x (.symbol .rBrace :: rest) k) :
    Complete .fields (t :: ts) [(name, x)] rest k := by
  intro done c d hk hd
  rw [fields, dif_neg (not_sees_of_fieldName? hk hn)]
  split
  · next hf =>
    rw [Cursor.token_of_kinds hk, hn] at hf
    cases hf
  · next name' hf =>
    rw [Cursor.token_of_kinds hk, hn] at hf
    cases hf
    refine (h (Cursor.next_of_kinds hk) hd).map ?_
    rintro ⟨x', e, he⟩ ⟨rfl, hke, hde⟩
    dsimp only at hke hde ⊢
    have hcomma : ¬ e.sees .comma = true := by
      rw [Cursor.sees_iff, Cursor.token_of_kinds hke]
      exact nofun
    rw [dif_neg hcomma]
    refine (expect_gives hke hde).after ?_
    rintro ⟨⟨⟩, f, hf⟩ ⟨hkf, hdf⟩
    exact gives_pure ⟨by simp, hkf, hdf⟩

theorem complete_fieldValue (h : Complete .expression ts x rest k) :
    Complete (.fieldValue name) (.symbol .colon :: ts) x rest k := by
  intro c d hk hd
  rw [fieldValue, dif_pos (Cursor.sees_of_kinds hk)]
  refine (h (Cursor.next_of_kinds hk) hd).map ?_
  rintro ⟨x', e, he⟩ ⟨rfl, hke, hde⟩
  exact gives_pure ⟨rfl, hke, hde⟩

theorem complete_fieldOnly (h : peek rest ≠ .symbol .colon) :
    Complete (.fieldValue name) rest (.identifier name) rest 0 := by
  intro c d hk hd
  rw [← hk] at h
  rw [fieldValue, dif_neg (Cursor.not_sees h)]
  exact (gives_pure ⟨rfl, hk, hd⟩).congr fits_zero

theorem complete_literal (h : literal? t = some x) : Complete .atom (t :: rest) x rest 0 := by
  intro c d hk hd
  rw [atom]
  split
  · next x' hl =>
    rw [Cursor.token_of_kinds hk, h] at hl
    cases hl
    exact (gives_pure ⟨rfl, Cursor.next_of_kinds hk, hd⟩).congr fits_zero
  · next hl =>
    rw [Cursor.token_of_kinds hk, h] at hl
    cases hl

end Lists

section Atoms

variable {ts rest : List Token} {x : Expr} {xs : List Expr} {members : List (String × Expr)} {k : Nat}

theorem complete_parentheses (h : Complete .expression ts x (.symbol .rParen :: rest) k) :
    Complete .atom (.symbol .lParen :: ts) x rest k := by
  intro c d hk hd
  have ht := Cursor.token_of_kinds hk
  rw [atom]
  split
  · next hl =>
    rw [ht] at hl
    cases hl
  · split
    · refine (h (Cursor.next_of_kinds hk) hd).map ?_
      rintro ⟨x', e, he⟩ ⟨rfl, hke, hde⟩
      refine (expect_gives hke hde).after ?_
      rintro ⟨⟨⟩, f, hf⟩ ⟨hkf, hdf⟩
      exact gives_pure ⟨rfl, hkf, hdf⟩
    all_goals simp_all

theorem complete_array (h : Complete (.elements .rBracket) ts xs rest k) :
    Complete .atom (.symbol .lBracket :: ts) (.array xs) rest k := by
  intro c d hk hd
  have ht := Cursor.token_of_kinds hk
  rw [atom]
  split
  · next hl =>
    rw [ht] at hl
    cases hl
  · split
    case h_2 =>
      refine (h (Cursor.next_of_kinds hk) hd).map ?_
      rintro ⟨xs', e, he⟩ ⟨rfl, hke, hde⟩
      exact gives_pure ⟨rfl, hke, hde⟩
    all_goals simp_all

theorem complete_object (h : Complete .fields ts members rest k) :
    Complete .atom (.symbol .lBrace :: ts) (.object members) rest k := by
  intro c d hk hd
  have ht := Cursor.token_of_kinds hk
  rw [atom]
  split
  · next hl =>
    rw [ht] at hl
    cases hl
  · split
    case h_3 =>
      refine (h (Cursor.next_of_kinds hk) hd).map ?_
      rintro ⟨xs', e, he⟩ ⟨rfl, hke, hde⟩
      exact gives_pure ⟨rfl, hke, hde⟩
    all_goals simp_all

theorem complete_atomFunction (h : Complete .functionTail ts x rest k) :
    Complete .atom (.functionWord :: ts) x rest k := by
  intro c d hk hd
  have ht := Cursor.token_of_kinds hk
  rw [atom]
  split
  · next hl =>
    rw [ht] at hl
    cases hl
  · split
    case h_4 =>
      refine (h (Cursor.next_of_kinds hk) hd).map ?_
      rintro ⟨x', e, he⟩ ⟨rfl, hke, hde⟩
      exact gives_pure ⟨rfl, hke, hde⟩
    all_goals simp_all

end Atoms

/-! ### The whole parser -/

theorem Reads.block_peek {ts rest : List Token} {ss : List Statement} {k : Nat}
    (h : Reads .block ts ss rest k) : peek ts = .symbol .lBrace := by
  cases h
  rfl

/-- The parser reads what the grammar reads, or finds it too deep. -/
theorem Reads.complete {g : Goal} {ts rest : List Token} {x : g.Result} {k : Nat}
    (h : Reads g ts x rest k) : Complete g ts x rest k := by
  induction h with
  | wordFunction _ ih => exact complete_wordFunction ih
  | arrowBlock ha h ih => exact complete_arrowBlock ha ih h.block_peek
  | arrowExpr ha hb _ ih => exact complete_arrowExpr ha hb ih
  | noFunction hw ha _ ih => exact complete_noFunction hw ha ih
  | named _ ih => exact complete_named ih
  | nameless _ ih => exact complete_nameless ih
  | braces _ ih => exact complete_braces ih
  | noStatement h => exact complete_noStatement h
  | oneStatement hb he _ _ ih ih' => exact complete_oneStatement hb he ih ih'
  | declare _ ih => exact complete_declare ih
  | declareOnly h => exact complete_declareOnly h
  | giveNothing h => exact complete_giveNothing h
  | give he _ ih => exact complete_give he ih
  | bare hd hr _ ih => exact complete_bare hd hr ih
  | unconditional _ hq ih => exact complete_unconditional ih hq
  | choice _ _ _ ih ihy ihn => exact complete_choice ih ihy ihn
  | tightest _ ih => exact complete_tightest ih
  | level _ _ ih ih' => exact complete_level ih ih'
  | chainEnd h => exact complete_chainEnd h
  | chain ho _ _ ih ih' => exact complete_chain ho ih ih'
  | noOperator ho _ ih => exact complete_noOperator ho ih
  | operator ho _ ih => exact complete_operator ho ih
  | operand _ _ ih ih' => exact complete_operand ih ih'
  | linksEnd h => exact complete_linksEnd h
  | member hp _ ih => exact complete_member hp ih
  | methodCall _ _ ih ih' => exact complete_methodCall ih ih'
  | index _ _ ih ih' => exact complete_index ih ih'
  | call _ _ ih ih' => exact complete_call ih ih'
  | noElement => exact complete_noElement
  | element hc _ _ ih ih' => exact complete_element hc ih ih'
  | lastElement hn hc _ ih => exact complete_lastElement hn hc ih
  | noField => exact complete_noField
  | field hn _ _ ih ih' => exact complete_field hn ih ih'
  | lastField hn _ ih => exact complete_lastField hn ih
  | fieldValue _ ih => exact complete_fieldValue ih
  | fieldOnly h => exact complete_fieldOnly h
  | literal h => exact complete_literal h
  | parentheses _ ih => exact complete_parentheses ih
  | array _ ih => exact complete_array ih
  | object _ ih => exact complete_object ih
  | atomFunction _ ih => exact complete_atomFunction ih

/-- A list of tokens that the grammar reads up to its end is parsed as that, unless it goes deeper
than there is room for. -/
theorem parseTokens_of_reads {ts : Tokens} {x : Expr} {rest : List Token} {k : Nat}
    (h : Reads .expression (ts.map Prod.fst) x rest k) (hrest : peek (skipSemicolons rest) = .eof) :
    Gives (parseTokens ts) (Fits 0 k) (· = x) := by
  unfold parseTokens
  refine (h.complete (c := ⟨ts, 0⟩) rfl rfl).map ?_
  rintro ⟨y, c, hc⟩ ⟨rfl, hk, -⟩
  dsimp only at hk ⊢
  split
  · exact gives_pure rfl
  · next he =>
    rw [Cursor.token_eq_peek, Cursor.kinds_behindSemicolons, hk] at he
    exact absurd hrest he

/-- The same for a text, as long as there is room for the levels. -/
theorem parseExpression_of_reads {text : String} {ts : Tokens} {x : Expr} {rest : List Token} {k : Nat}
    (hts : tokenize text = .ok ts) (h : Reads .expression (ts.map Prod.fst) x rest k)
    (hrest : peek (skipSemicolons rest) = .eof) (hk : k ≤ maxDepth) : parseExpression text = .ok x := by
  rw [parseExpression, hts]
  rcases parseTokens_of_reads h hrest with ⟨-, y, hy, rfl⟩ | ⟨hfits, -⟩
  · exact hy
  · exact absurd (.inr (by omega)) hfits

end LiveNotes.Script
