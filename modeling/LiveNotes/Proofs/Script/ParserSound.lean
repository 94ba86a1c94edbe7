import LiveNotes.Proofs.Script.Grammar

/-!
What the parser reads, the grammar allows: a successful reader at a cursor took a beginning of the
tokens there that the grammar reads as the same thing, no deeper than the cursor's depth leaves room
for, and it gives the depth back.

* `Found g c x after`: at `c` the grammar reads an `x` up to `after`, within the depth left at `c`;
* `sound`: every reader gives what the grammar reads, by induction as the readers call each other;
* `parseTokens_reads`: a parsed expression is one of the grammar, followed by semicolons alone.
-/

namespace LiveNotes.Script

/-! ### Cursors -/

namespace Cursor

/-- The tokens at a cursor, without their positions. -/
def kinds (c : Cursor) : List Token := c.rest.map Prod.fst

@[simp] theorem kinds_withDepth (c : Cursor) (d : Nat) : (c.withDepth d).kinds = c.kinds := rfl

@[simp] theorem depth_withDepth (c : Cursor) (d : Nat) : (c.withDepth d).depth = d := rfl

@[simp] theorem depth_withRest (c : Cursor) (ts : Tokens) : (c.withRest ts).depth = c.depth := rfl

@[simp] theorem kinds_withRest (c : Cursor) (ts : Tokens) :
    (c.withRest ts).kinds = ts.map Prod.fst := rfl

@[simp] theorem depth_next (c : Cursor) : c.next.depth = c.depth := rfl

@[simp] theorem depth_behindSemicolons (c : Cursor) : c.behindSemicolons.depth = c.depth := rfl

theorem token_eq_peek (c : Cursor) : c.token = peek c.kinds := by
  obtain ⟨_ | ⟨⟨t, p⟩, rest⟩, d⟩ := c
  · rfl
  · rfl

theorem kinds_eq_cons {c : Cursor} {t : Token} (h : c.token = t) (ht : t ≠ .eof) :
    c.kinds = t :: c.next.kinds := by
  obtain ⟨_ | ⟨⟨t', p⟩, rest⟩, d⟩ := c
  · exact absurd h.symm ht
  · subst h
    rfl

theorem sees_iff {c : Cursor} {s : Symbol} : c.sees s = true ↔ c.token = .symbol s := by
  unfold sees
  split
  · next t ht => simp [ht]
  · next h => exact ⟨nofun, fun hs => absurd hs (h s)⟩

theorem kinds_of_sees {c : Cursor} {s : Symbol} (h : c.sees s = true) :
    c.kinds = .symbol s :: c.next.kinds :=
  kinds_eq_cons (sees_iff.mp h) nofun

theorem peek_ne_of_not_sees {c : Cursor} {s : Symbol} (h : ¬ c.sees s = true) :
    peek c.kinds ≠ .symbol s := by
  rw [← token_eq_peek]
  exact fun hs => h (sees_iff.mpr hs)

theorem kinds_behindSemicolons (c : Cursor) :
    c.behindSemicolons.kinds = skipSemicolons c.kinds := by
  obtain ⟨rest, d⟩ := c
  change (dropSemicolons rest).map Prod.fst = skipSemicolons (rest.map Prod.fst)
  induction rest with
  | nil => rfl
  | cons t rest ih =>
    obtain ⟨t, p⟩ := t
    by_cases ht : t = .symbol .semicolon
    · subst ht
      exact ih
    · rw [dropSemicolons, List.map_cons, skipSemicolons]
      · intro ts h
        exact ht (List.cons.inj h).1
      · intro q ts h
        exact ht (Prod.mk.inj (List.cons.inj h).1).1

end Cursor

/-! ### Parameters -/

/-- Names before a parenthesis begin with a name and a comma, or are one name. -/
theorem nameTokens_cons (name : String) {names : List String} (h : names ≠ []) :
    nameTokens (name :: names) = .identifier name :: .symbol .comma :: nameTokens names := by
  rw [nameTokens]
  exact h

theorem arrowNames?_some {done : List String} {ts : Tokens} {params : List String} {rest : Tokens}
    (h : arrowNames? done ts = some (params, rest)) : ∃ names ≠ [], params = done.reverse ++ names ∧
      ts.map Prod.fst = nameTokens names ++ .symbol .rParen :: .symbol .arrow :: rest.map Prod.fst := by
  fun_induction arrowNames? done ts with
  | case1 done name p q ts ih =>
    obtain ⟨names, hne, rfl, hts⟩ := ih h
    refine ⟨name :: names, List.cons_ne_nil _ _, by simp, ?_⟩
    rw [nameTokens_cons name hne, List.map_cons, List.map_cons, hts]
    rfl
  | case2 done name p q r ts =>
    obtain ⟨rfl, rfl⟩ := Prod.mk.inj (Option.some.inj h)
    exact ⟨[name], List.cons_ne_nil _ _, by simp, rfl⟩
  | case3 => cases h

theorem arrowParams?_some {ts : Tokens} {params : List String} {rest : Tokens}
    (h : arrowParams? ts = some (params, rest)) :
    ArrowHead (ts.map Prod.fst) params (rest.map Prod.fst) := by
  unfold arrowParams? at h
  split at h
  · next name _ _ _ =>
    obtain ⟨rfl, rfl⟩ := Prod.mk.inj (Option.some.inj h)
    exact .inl ⟨name, rfl, rfl⟩
  · obtain ⟨rfl, rfl⟩ := Prod.mk.inj (Option.some.inj h)
    exact .inr rfl
  · obtain ⟨names, -, rfl, hts⟩ := arrowNames?_some h
    refine .inr ?_
    rw [List.map_cons, hts]
    simp [paramTokens]
  · cases h

theorem arrowNames?_names (done : List String) {names : List String} (hne : names ≠ []) {ts : Tokens}
    {body : List Token}
    (h : ts.map Prod.fst = nameTokens names ++ .symbol .rParen :: .symbol .arrow :: body) :
    ∃ rest, arrowNames? done ts = some (done.reverse ++ names, rest) ∧ rest.map Prod.fst = body := by
  induction names generalizing done ts with
  | nil => exact absurd rfl hne
  | cons name names ih =>
    cases names with
    | nil =>
      obtain _ | ⟨⟨_, _⟩, _ | ⟨⟨_, _⟩, _ | ⟨⟨_, _⟩, rest⟩⟩⟩ := ts <;>
        simp [nameTokens] at h
      obtain ⟨rfl, rfl, rfl, h⟩ := h
      exact ⟨rest, by simp [arrowNames?], h⟩
    | cons name' names =>
      rw [nameTokens_cons name (List.cons_ne_nil _ _)] at h
      obtain _ | ⟨⟨_, _⟩, _ | ⟨⟨_, _⟩, ts⟩⟩ := ts <;> simp at h
      obtain ⟨rfl, rfl, h⟩ := h
      obtain ⟨rest, hr, hb⟩ := ih (name :: done) (List.cons_ne_nil _ _) h
      exact ⟨rest, by simp [arrowNames?, hr], hb⟩

theorem arrowParams?_of_arrowHead {ts : Tokens} {params : List String} {body : List Token}
    (h : ArrowHead (ts.map Prod.fst) params body) :
    ∃ rest, arrowParams? ts = some (params, rest) ∧ rest.map Prod.fst = body := by
  obtain ⟨name, rfl, h⟩ | h := h
  · obtain _ | ⟨⟨_, _⟩, _ | ⟨⟨_, _⟩, rest⟩⟩ := ts <;> simp at h
    obtain ⟨rfl, rfl, h⟩ := h
    exact ⟨rest, rfl, h⟩
  · obtain _ | ⟨⟨_, _⟩, ts⟩ := ts <;> simp [paramTokens] at h
    obtain ⟨rfl, h⟩ := h
    by_cases hp : params = []
    · subst hp
      obtain _ | ⟨⟨_, _⟩, _ | ⟨⟨_, _⟩, rest⟩⟩ := ts <;> simp [nameTokens] at h
      obtain ⟨rfl, rfl, h⟩ := h
      exact ⟨rest, rfl, h⟩
    · obtain ⟨rest, hr, hb⟩ := arrowNames?_names [] hp h
      refine ⟨rest, ?_, hb⟩
      rw [arrowParams?, hr]
      · simp
      · rintro p q ts' rfl
        simp [arrowNames?] at hr

/-- No arrow function begins where the parser sees none. -/
theorem arrowParams?_eq_none {ts : Tokens} :
    arrowParams? ts = none ↔ ∀ params body, ¬ ArrowHead (ts.map Prod.fst) params body := by
  constructor
  · intro h params body ha
    obtain ⟨rest, hr, -⟩ := arrowParams?_of_arrowHead ha
    rw [h] at hr
    cases hr
  · intro h
    cases hp : arrowParams? ts with
    | none => rfl
    | some r => exact absurd (arrowParams?_some hp) (h _ _)

theorem paramNames_ok {done : List String} {ts : Tokens} {depth : Nat} {params : List String}
    {rest : Tokens} (h : paramNames done ts depth = .ok (params, rest)) :
    ∃ names ≠ [], params = done.reverse ++ names ∧
      ts.map Prod.fst = nameTokens names ++ .symbol .rParen :: rest.map Prod.fst := by
  fun_induction paramNames done ts depth with
  | case1 done name p q ts ih =>
    obtain ⟨names, hne, rfl, hts⟩ := ih h
    refine ⟨name :: names, List.cons_ne_nil _ _, by simp, ?_⟩
    rw [nameTokens_cons name hne, List.map_cons, List.map_cons, hts]
    rfl
  | case2 done name p q ts =>
    obtain ⟨rfl, rfl⟩ := Prod.mk.inj (Except.ok.inj h)
    exact ⟨[name], List.cons_ne_nil _ _, by simp, rfl⟩
  | case3 => cases h
  | case4 => cases h

theorem paramNames_names (depth : Nat) (done : List String) {names : List String}
    (hne : names ≠ []) {ts : Tokens} {after : List Token}
    (h : ts.map Prod.fst = nameTokens names ++ .symbol .rParen :: after) :
    ∃ rest, paramNames done ts depth = .ok (done.reverse ++ names, rest) ∧
      rest.map Prod.fst = after := by
  induction names generalizing done ts with
  | nil => exact absurd rfl hne
  | cons name names ih =>
    cases names with
    | nil =>
      obtain _ | ⟨⟨_, _⟩, _ | ⟨⟨_, _⟩, rest⟩⟩ := ts <;> simp [nameTokens] at h
      obtain ⟨rfl, rfl, h⟩ := h
      exact ⟨rest, by simp [paramNames], h⟩
    | cons name' names =>
      rw [nameTokens_cons name (List.cons_ne_nil _ _)] at h
      obtain _ | ⟨⟨_, _⟩, _ | ⟨⟨_, _⟩, ts⟩⟩ := ts <;> simp at h
      obtain ⟨rfl, rfl, h⟩ := h
      obtain ⟨rest, hr, hb⟩ := ih (name :: done) (List.cons_ne_nil _ _) h
      exact ⟨rest, by simp [paramNames, hr], hb⟩

/-! ### Readers -/

/-- At a cursor the grammar reads an `x` up to another cursor, within the depth left. -/
def Found (g : Goal) (c : Cursor) (x : g.Result) (after : Cursor) : Prop :=
  ∃ k, Reads g c.kinds x after.kinds k ∧ (k = 0 ∨ c.depth + k ≤ maxDepth)

/-- A chain of steps that succeeded, cut at its first step. -/
theorem bind_ok {α β ε : Type} {r : Except ε α} {f : α → Except ε β} {b : β}
    (h : (r >>= f) = .ok b) : ∃ a, r = .ok a ∧ f a = .ok b := by
  cases r with
  | error e => cases h
  | ok a => exact ⟨a, rfl, h⟩

theorem expect_ok {s : Symbol} {c after : Cursor} {u : Unit} {hlt : _}
    (h : expect s c = .ok ⟨u, after, hlt⟩) :
    c.kinds = .symbol s :: after.kinds ∧ after.depth = c.depth := by
  unfold expect at h
  split at h
  · next hs =>
    cases h
    exact ⟨Cursor.kinds_of_sees hs, rfl⟩
  · cases h

theorem expectName_ok {c after : Cursor} {name : String} {hlt : _}
    (h : expectName c = .ok ⟨name, after, hlt⟩) :
    c.kinds = .identifier name :: after.kinds ∧ after.depth = c.depth := by
  unfold expectName at h
  split at h
  · next ht =>
    cases h
    exact ⟨Cursor.kinds_eq_cons ht (by simp), rfl⟩
  · cases h

theorem descend_ok {c d : Cursor} {hd : _} (h : descend c = .ok ⟨d, hd⟩) :
    d.kinds = c.kinds ∧ d.depth = c.depth + 1 ∧ c.depth + 1 ≤ maxDepth := by
  unfold descend at h
  split at h
  · cases h
  · cases h
    exact ⟨rfl, rfl, by omega⟩

theorem kinds_of_descend {c d : Cursor} {hd : _} {t : Token} (h : descend c = .ok ⟨d, hd⟩)
    (ht : c.token = t) (hne : t ≠ .eof) : c.kinds = t :: d.next.kinds := by
  have hk := (descend_ok h).1
  rw [← hk]
  refine Cursor.kinds_eq_cons ?_ hne
  rw [Cursor.token_eq_peek, hk, ← Cursor.token_eq_peek, ht]

theorem paramList_ok {c after : Cursor} {params : List String} {hlt : _}
    (h : paramList c = .ok ⟨params, after, hlt⟩) :
    c.kinds = paramTokens params ++ after.kinds ∧ after.depth = c.depth := by
  unfold paramList at h
  obtain ⟨⟨⟨⟩, d, hd⟩, he, h⟩ := bind_ok h
  obtain ⟨hk, hdepth⟩ := expect_ok he
  dsimp only at h
  split at h
  · next hs =>
    cases h
    rw [hk, Cursor.kinds_of_sees hs]
    exact ⟨rfl, hdepth⟩
  · split at h
    · cases h
    · next rest hp =>
      cases h
      obtain ⟨names, -, rfl, hts⟩ := paramNames_ok hp
      refine ⟨?_, hdepth⟩
      rw [hk]
      change _ :: d.rest.map Prod.fst = _
      rw [hts]
      simp [paramTokens]

/-- The order in which the readers call each other on the same tokens. -/
def Goal.rank : Goal → Nat
  | .statements => 14
  | .statement | .elements _ => 13
  | .expression => 12
  | .conditional => 11
  | .level n => 3 + n
  | .unary => 2
  | .operand => 1
  | _ => 0

/-- What a reader takes at a cursor, the grammar reads there; the depth is given back, by the readers
of links and chains to the one that called them. -/
def Sound : Goal → Cursor → Prop
  | .expression, c => ∀ ⦃x after hlt⦄, expression c = .ok ⟨x, after, hlt⟩ →
    Found .expression c x after ∧ after.depth = c.depth
  | .functionTail, c => ∀ ⦃x after hlt⦄, functionTail c = .ok ⟨x, after, hlt⟩ →
    Found .functionTail c x after ∧ after.depth = c.depth
  | .block, c => ∀ ⦃ss after hlt⦄, block c = .ok ⟨ss, after, hlt⟩ →
    Found .block c ss after ∧ after.depth = c.depth
  | .statements, c => ∀ ⦃done all after hlt⦄, statementsFrom done c = .ok ⟨all, after, hlt⟩ →
    ∃ ss, all = done.reverse ++ ss ∧ Found .statements c ss after ∧ after.depth = c.depth
  | .statement, c => ∀ ⦃s after hlt⦄, statement c = .ok ⟨s, after, hlt⟩ →
    Found .statement c s after ∧ after.depth = c.depth
  | .conditional, c => ∀ ⦃x after hlt⦄, conditional c = .ok ⟨x, after, hlt⟩ →
    Found .conditional c x after ∧ after.depth = c.depth
  | .level n, c => ∀ ⦃hl x after hlt⦄, binaryLevel n hl c = .ok ⟨x, after, hlt⟩ →
    Found (.level n) c x after ∧ after.depth = c.depth
  | .chain n left, c => ∀ ⦃hl x after hle⦄, chain n hl left c = .ok ⟨x, after, hle⟩ →
    Found (.chain n left) c x after
  | .unary, c => ∀ ⦃x after hlt⦄, unary c = .ok ⟨x, after, hlt⟩ →
    Found .unary c x after ∧ after.depth = c.depth
  | .operand, c => ∀ ⦃x after hlt⦄, operand c = .ok ⟨x, after, hlt⟩ →
    Found .operand c x after ∧ after.depth = c.depth
  | .links x, c => ∀ ⦃y after hle⦄, links x c = .ok ⟨y, after, hle⟩ → Found (.links x) c y after
  | .elements close, c => ∀ ⦃done all after hlt⦄, elements close done c = .ok ⟨all, after, hlt⟩ →
    ∃ xs, all = done.reverse ++ xs ∧ Found (.elements close) c xs after ∧ after.depth = c.depth
  | .fields, c => ∀ ⦃done all after hlt⦄, fields done c = .ok ⟨all, after, hlt⟩ →
    ∃ xs, all = done.reverse ++ xs ∧ Found .fields c xs after ∧ after.depth = c.depth
  | .fieldValue name, c => ∀ ⦃x after hle⦄, fieldValue name c = .ok ⟨x, after, hle⟩ →
    Found (.fieldValue name) c x after ∧ after.depth = c.depth
  | .atom, c => ∀ ⦃x after hlt⦄, atom c = .ok ⟨x, after, hlt⟩ →
    Found .atom c x after ∧ after.depth = c.depth

/-- The readers called before a given one are sound. -/
def SoundBelow (n : Nat) : Prop := ∀ g (c : Cursor), 16 * c.rest.length + g.rank < n → Sound g c

theorem expression_sound {c : Cursor}
    (ih : SoundBelow (16 * c.rest.length + Goal.rank .expression)) : Sound .expression c := by
  intro x after hlt h
  rw [expression] at h
  obtain ⟨⟨d, hd⟩, hdesc, h⟩ := bind_ok h
  obtain ⟨hk, hdepth, hmax⟩ := descend_ok hdesc
  have hlen := congrArg List.length hd
  dsimp only at h
  split at h
  · next ht =>
    have := Cursor.next_lt (c := d) (by simp [ht])
    obtain ⟨⟨x, e, he⟩, hx, h⟩ := bind_ok h
    cases h
    obtain ⟨⟨k, hr, hle⟩, -⟩ := ih .functionTail _ (by dsimp only [Goal.rank]; omega) hx
    rw [Cursor.depth_next] at hle
    refine ⟨⟨k + 1, ?_, by omega⟩, rfl⟩
    rw [← hk, Cursor.kinds_eq_cons ht (by simp)]
    exact .wordFunction hr
  · next hw =>
    split at h
    · next params rest hp =>
      have : (d.withRest rest).rest.length < d.rest.length := arrowParams?_shorter hp
      have ha := arrowParams?_some hp
      split at h
      · obtain ⟨⟨ss, e, he⟩, hx, h⟩ := bind_ok h
        cases h
        obtain ⟨⟨k, hr, hle⟩, -⟩ := ih .block _ (by dsimp only [Goal.rank]; omega) hx
        rw [Cursor.depth_withRest] at hle
        refine ⟨⟨k + 1, ?_, by omega⟩, rfl⟩
        rw [← hk]
        exact .arrowBlock ha hr
      · next hb =>
        obtain ⟨⟨x, e, he⟩, hx, h⟩ := bind_ok h
        cases h
        obtain ⟨⟨k, hr, hle⟩, -⟩ := ih .expression _ (by dsimp only [Goal.rank]; omega) hx
        rw [Cursor.depth_withRest] at hle
        refine ⟨⟨k + 1, ?_, by omega⟩, rfl⟩
        rw [← hk]
        exact .arrowExpr ha (Cursor.peek_ne_of_not_sees hb) hr
    · next hp =>
      obtain ⟨⟨x, e, he⟩, hx, h⟩ := bind_ok h
      cases h
      obtain ⟨⟨k, hr, hle⟩, -⟩ := ih .conditional _ (by dsimp only [Goal.rank]; omega) hx
      refine ⟨⟨k + 1, ?_, by omega⟩, rfl⟩
      rw [← hk]
      refine .noFunction ?_ (arrowParams?_eq_none.mp hp) hr
      rw [← Cursor.token_eq_peek]
      exact hw

theorem functionTail_sound {c : Cursor}
    (ih : SoundBelow (16 * c.rest.length + Goal.rank .functionTail)) : Sound .functionTail c := by
  intro x after hlt h
  rw [functionTail] at h
  split at h
  · next name ht =>
    have := Cursor.next_lt (c := c) (by simp [ht])
    obtain ⟨⟨params, d, hd⟩, hp, h⟩ := bind_ok h
    dsimp only at h
    obtain ⟨⟨ss, e, he⟩, hx, h⟩ := bind_ok h
    cases h
    obtain ⟨hk, hdepth⟩ := paramList_ok hp
    obtain ⟨⟨k, hr, hle⟩, hafter⟩ := ih .block _ (by dsimp only [Goal.rank]; omega) hx
    rw [Cursor.depth_next] at hdepth
    refine ⟨⟨k, ?_, by omega⟩, hafter.trans hdepth⟩
    rw [Cursor.kinds_eq_cons ht (by simp), hk]
    exact .named hr
  · obtain ⟨⟨params, d, hd⟩, hp, h⟩ := bind_ok h
    dsimp only at h
    obtain ⟨⟨ss, e, he⟩, hx, h⟩ := bind_ok h
    cases h
    obtain ⟨hk, hdepth⟩ := paramList_ok hp
    obtain ⟨⟨k, hr, hle⟩, hafter⟩ := ih .block _ (by dsimp only [Goal.rank]; omega) hx
    refine ⟨⟨k, ?_, by omega⟩, hafter.trans hdepth⟩
    rw [hk]
    exact .nameless hr

theorem block_sound {c : Cursor}
    (ih : SoundBelow (16 * c.rest.length + Goal.rank .block)) : Sound .block c := by
  intro ss after hlt h
  rw [block] at h
  obtain ⟨⟨⟨⟩, d, hd⟩, hb, h⟩ := bind_ok h
  dsimp only at h
  obtain ⟨⟨ss, e, he⟩, hx, h⟩ := bind_ok h
  cases h
  obtain ⟨hk, hdepth⟩ := expect_ok hb
  obtain ⟨ss', rfl, ⟨k, hr, hle⟩, hafter⟩ := ih .statements _ (by dsimp only [Goal.rank]; omega) hx
  refine ⟨⟨k, ?_, by omega⟩, hafter.trans hdepth⟩
  rw [hk]
  exact .braces hr

theorem statementsFrom_sound {c : Cursor}
    (ih : SoundBelow (16 * c.rest.length + Goal.rank .statements)) : Sound .statements c := by
  intro done all after hlt h
  rw [statementsFrom] at h
  have hle : c.behindSemicolons.rest.length ≤ c.rest.length := dropSemicolons_length_le c.rest
  have hskip := Cursor.kinds_behindSemicolons c
  split at h
  · next hs =>
    cases h
    refine ⟨[], by simp, ⟨0, .noStatement ?_, .inl rfl⟩, rfl⟩
    rw [← hskip, Cursor.kinds_of_sees hs]
  · next hs =>
    split at h
    · cases h
    · next he =>
      obtain ⟨⟨s, d, hd⟩, hx, h⟩ := bind_ok h
      dsimp only at h
      obtain ⟨⟨ss, g, hg⟩, hx', h⟩ := bind_ok h
      cases h
      obtain ⟨⟨k, hr, hk⟩, hafter⟩ := ih .statement _ (by dsimp only [Goal.rank]; omega) hx
      obtain ⟨ss', hss, ⟨k', hr', hk'⟩, hafter'⟩ := ih .statements _ (by dsimp only [Goal.rank]; omega) hx'
      rw [Cursor.depth_behindSemicolons] at hk hafter
      refine ⟨s :: ss', by simp [hss], ⟨max k k', ?_, by omega⟩, hafter'.trans hafter⟩
      rw [hskip] at hr
      refine .oneStatement ?_ ?_ hr hr'
      · rw [← hskip]
        exact Cursor.peek_ne_of_not_sees hs
      · rw [← hskip, ← Cursor.token_eq_peek]
        exact he

theorem statement_sound {c : Cursor}
    (ih : SoundBelow (16 * c.rest.length + Goal.rank .statement)) : Sound .statement c := by
  intro s after hlt h
  rw [statement] at h
  split at h
  · next ht =>
    have := Cursor.next_lt (c := c) (by simp [ht])
    obtain ⟨⟨name, d, hd⟩, hn, h⟩ := bind_ok h
    obtain ⟨hk, hdepth⟩ := expectName_ok hn
    rw [Cursor.depth_next] at hdepth
    dsimp only at h
    split at h
    · next hs =>
      have := Cursor.next_lt_of_sees hs
      obtain ⟨⟨x, e, he⟩, hx, h⟩ := bind_ok h
      cases h
      obtain ⟨⟨k, hr, hle⟩, hafter⟩ := ih .expression _ (by dsimp only [Goal.rank]; omega) hx
      rw [Cursor.depth_next] at hle hafter
      refine ⟨⟨k, ?_, by omega⟩, hafter.trans hdepth⟩
      rw [Cursor.kinds_eq_cons ht (by simp), hk, Cursor.kinds_of_sees hs]
      exact .declare hr
    · next hs =>
      cases h
      refine ⟨⟨0, ?_, .inl rfl⟩, hdepth⟩
      rw [Cursor.kinds_eq_cons ht (by simp), hk]
      exact .declareOnly (Cursor.peek_ne_of_not_sees hs)
  · next ht =>
    have := Cursor.next_lt (c := c) (by simp [ht])
    rw [Found, Cursor.kinds_eq_cons ht (by simp)]
    split at h
    · next he =>
      cases h
      rw [Cursor.token_eq_peek] at he
      exact ⟨⟨0, .giveNothing he, .inl rfl⟩, rfl⟩
    · next he =>
      obtain ⟨⟨x, d, hd⟩, hx, h⟩ := bind_ok h
      cases h
      obtain ⟨⟨k, hr, hle⟩, hafter⟩ := ih .expression _ (by dsimp only [Goal.rank]; omega) hx
      rw [Cursor.token_eq_peek] at he
      exact ⟨⟨k, .give (by simpa using he) hr, hle⟩, hafter⟩
  · next hdecl hret =>
    obtain ⟨⟨x, d, hd⟩, hx, h⟩ := bind_ok h
    cases h
    obtain ⟨⟨k, hr, hle⟩, hafter⟩ := ih .expression _ (by dsimp only [Goal.rank]; omega) hx
    rw [Cursor.token_eq_peek] at hdecl hret
    exact ⟨⟨k, .bare hdecl hret hr, hle⟩, hafter⟩

theorem conditional_sound {c : Cursor}
    (ih : SoundBelow (16 * c.rest.length + Goal.rank .conditional)) : Sound .conditional c := by
  intro x after hlt h
  have hlevels : levels = 7 := rfl
  rw [conditional] at h
  obtain ⟨⟨x, d, hd⟩, hx, h⟩ := bind_ok h
  obtain ⟨⟨k, hr, hle⟩, hdepth⟩ := ih (.level _) _ (by dsimp only [Goal.rank]; omega) hx
  dsimp only at h
  split at h
  · next hs =>
    have := Cursor.next_lt_of_sees hs
    obtain ⟨⟨yes, e, he⟩, hy, h⟩ := bind_ok h
    dsimp only at h
    obtain ⟨⟨⟨⟩, f, hf⟩, hcolon, h⟩ := bind_ok h
    dsimp only at h
    obtain ⟨⟨no, g, hg⟩, hn, h⟩ := bind_ok h
    cases h
    obtain ⟨⟨k', hr', hle'⟩, hdepth'⟩ := ih .expression _ (by dsimp only [Goal.rank]; omega) hy
    obtain ⟨hk, hfdepth⟩ := expect_ok hcolon
    obtain ⟨⟨k'', hr'', hle''⟩, hdepth''⟩ := ih .expression _ (by dsimp only [Goal.rank]; omega) hn
    rw [Cursor.depth_next] at hle' hdepth'
    refine ⟨⟨max k (max k' k''), ?_, by omega⟩, hdepth''.trans (hfdepth.trans (hdepth'.trans hdepth))⟩
    rw [Cursor.kinds_of_sees hs] at hr
    rw [hk] at hr'
    exact .choice hr hr' hr''
  · next hs =>
    cases h
    exact ⟨⟨k, .unconditional hr (Cursor.peek_ne_of_not_sees hs), hle⟩, hdepth⟩

theorem binaryLevel_sound {level : Nat} {c : Cursor}
    (ih : SoundBelow (16 * c.rest.length + Goal.rank (.level level))) : Sound (.level level) c := by
  intro hl x after hlt h
  have hlevels : levels = 7 := rfl
  rw [binaryLevel.eq_def] at h
  split at h
  · obtain ⟨⟨k, hr, hle⟩, hdepth⟩ := ih .unary _ (by dsimp only [Goal.rank]; omega) h
    exact ⟨⟨k, .tightest hr, hle⟩, hdepth⟩
  · obtain ⟨⟨left, d, hd⟩, hx, h⟩ := bind_ok h
    dsimp only at h
    obtain ⟨⟨x, e, he⟩, hx', h⟩ := bind_ok h
    cases h
    obtain ⟨⟨k, hr, hle⟩, hdepth⟩ := ih (.level _) _ (by dsimp only [Goal.rank]; omega) hx
    obtain ⟨k', hr', hle'⟩ := ih (.chain _ _) _ (by dsimp only [Goal.rank]; omega) hx'
    exact ⟨⟨max k k', .level hr hr', by omega⟩, rfl⟩

theorem chain_sound {level : Nat} {left : Expr} {c : Cursor}
    (ih : SoundBelow (16 * c.rest.length + Goal.rank (.chain level left))) : Sound (.chain level left) c := by
  intro hl x after hle h
  have hlevels : levels = 7 := rfl
  rw [chain] at h
  split at h
  · next ho =>
    cases h
    rw [Cursor.token_eq_peek] at ho
    exact ⟨0, .chainEnd ho, .inl rfl⟩
  · next op ho =>
    have := Cursor.next_lt (operatorAt?_ne_eof ho)
    obtain ⟨⟨d, hd⟩, hdesc, h⟩ := bind_ok h
    dsimp only at h
    obtain ⟨⟨right, e, he⟩, hx, h⟩ := bind_ok h
    dsimp only at h
    obtain ⟨⟨r, g, hg⟩, hx', h⟩ := bind_ok h
    cases h
    obtain ⟨hk, hdepth, hmax⟩ := descend_ok hdesc
    have hlen := congrArg List.length hd
    obtain ⟨⟨k, hr, hle⟩, hafter⟩ := ih (.level _) _ (by dsimp only [Goal.rank]; omega) hx
    obtain ⟨k', hr', hle'⟩ := ih (.chain _ _) _ (by dsimp only [Goal.rank]; omega) hx'
    rw [Cursor.depth_next] at hdepth hmax
    refine ⟨max k k' + 1, ?_, by omega⟩
    rw [Cursor.kinds_eq_cons rfl (operatorAt?_ne_eof ho), ← hk]
    exact .chain ho hr hr'

theorem unary_sound {c : Cursor}
    (ih : SoundBelow (16 * c.rest.length + Goal.rank .unary)) : Sound .unary c := by
  intro x after hlt h
  rw [unary] at h
  split at h
  · next ho =>
    obtain ⟨⟨k, hr, hle⟩, hdepth⟩ := ih .operand _ (by dsimp only [Goal.rank]; omega) h
    rw [Cursor.token_eq_peek] at ho
    exact ⟨⟨k, .noOperator ho hr, hle⟩, hdepth⟩
  · next op ho =>
    have := Cursor.next_lt (unaryOperator?_ne_eof ho)
    obtain ⟨⟨d, hd⟩, hdesc, h⟩ := bind_ok h
    dsimp only at h
    obtain ⟨⟨x, e, he⟩, hx, h⟩ := bind_ok h
    cases h
    obtain ⟨hk, hdepth, hmax⟩ := descend_ok hdesc
    have hlen := congrArg List.length hd
    obtain ⟨⟨k, hr, hle⟩, -⟩ := ih .unary _ (by dsimp only [Goal.rank]; omega) hx
    rw [Cursor.depth_next] at hdepth hmax
    refine ⟨⟨k + 1, ?_, by omega⟩, rfl⟩
    rw [Cursor.kinds_eq_cons rfl (unaryOperator?_ne_eof ho), ← hk]
    exact .operator ho hr

theorem operand_sound {c : Cursor}
    (ih : SoundBelow (16 * c.rest.length + Goal.rank .operand)) : Sound .operand c := by
  intro x after hlt h
  rw [operand] at h
  obtain ⟨⟨x, d, hd⟩, hx, h⟩ := bind_ok h
  dsimp only at h
  obtain ⟨⟨y, e, he⟩, hx', h⟩ := bind_ok h
  cases h
  obtain ⟨⟨k, hr, hle⟩, hdepth⟩ := ih .atom _ (by dsimp only [Goal.rank]; omega) hx
  obtain ⟨k', hr', hle'⟩ := ih (.links _) _ (by dsimp only [Goal.rank]; omega) hx'
  exact ⟨⟨max k k', .operand hr hr', by omega⟩, rfl⟩

theorem links_sound {x : Expr} {c : Cursor}
    (ih : SoundBelow (16 * c.rest.length + Goal.rank (.links x))) : Sound (.links x) c := by
  intro y after hle h
  rw [links.eq_def] at h
  split at h
  · next ht =>
    obtain ⟨⟨d, hd⟩, hdesc, h⟩ := bind_ok h
    dsimp only at h
    have := Cursor.next_lt_of_rest_eq hd (by simp [ht])
    obtain ⟨⟨name, e, he⟩, hn, h⟩ := bind_ok h
    obtain ⟨hk, hdepth, hmax⟩ := descend_ok hdesc
    obtain ⟨hname, hedepth⟩ := expectName_ok hn
    rw [Cursor.depth_next] at hedepth
    have hdot : c.kinds = .symbol .dot :: .identifier name :: e.kinds := by
      rw [← hname, ← kinds_of_descend hdesc ht (by simp)]
    dsimp only at h
    split at h
    · next hs =>
      have := Cursor.next_lt_of_sees hs
      obtain ⟨⟨args, f, hf⟩, hx, h⟩ := bind_ok h
      dsimp only at h
      obtain ⟨⟨r, g, hg⟩, hx', h⟩ := bind_ok h
      cases h
      obtain ⟨args, rfl, ⟨k, hr, hle⟩, hafter⟩ := ih (.elements _) _ (by dsimp only [Goal.rank]; omega) hx
      obtain ⟨k', hr', hle'⟩ := ih (.links _) _ (by dsimp only [Goal.rank]; omega) hx'
      rw [Cursor.depth_next] at hle hafter
      refine ⟨max k k' + 1, ?_, by omega⟩
      rw [hdot, Cursor.kinds_of_sees hs]
      exact .methodCall hr hr'
    · next hs =>
      obtain ⟨⟨r, g, hg⟩, hx, h⟩ := bind_ok h
      cases h
      obtain ⟨k, hr, hle⟩ := ih (.links _) _ (by dsimp only [Goal.rank]; omega) hx
      refine ⟨k + 1, ?_, by omega⟩
      rw [hdot]
      exact .member (Cursor.peek_ne_of_not_sees hs) hr
  · next ht =>
    obtain ⟨⟨d, hd⟩, hdesc, h⟩ := bind_ok h
    dsimp only at h
    have := Cursor.next_lt_of_rest_eq hd (by simp [ht])
    obtain ⟨⟨key, e, he⟩, hx, h⟩ := bind_ok h
    dsimp only at h
    obtain ⟨⟨⟨⟩, f, hf⟩, hbracket, h⟩ := bind_ok h
    dsimp only at h
    obtain ⟨⟨r, g, hg⟩, hx', h⟩ := bind_ok h
    cases h
    obtain ⟨hk, hdepth, hmax⟩ := descend_ok hdesc
    obtain ⟨⟨k, hr, hle⟩, hafter⟩ := ih .expression _ (by dsimp only [Goal.rank]; omega) hx
    obtain ⟨hke, hfdepth⟩ := expect_ok hbracket
    obtain ⟨k', hr', hle'⟩ := ih (.links _) _ (by dsimp only [Goal.rank]; omega) hx'
    rw [Cursor.depth_next] at hle hafter
    refine ⟨max k k' + 1, ?_, by omega⟩
    rw [hke] at hr
    rw [kinds_of_descend hdesc ht (by simp)]
    exact .index hr hr'
  · next ht =>
    obtain ⟨⟨d, hd⟩, hdesc, h⟩ := bind_ok h
    have := Cursor.next_lt_of_rest_eq hd (by simp [ht])
    obtain ⟨hk, hdepth, hmax⟩ := descend_ok hdesc
    dsimp only at h
    split at h
    · obtain ⟨⟨args, e, he⟩, hx, h⟩ := bind_ok h
      dsimp only at h
      obtain ⟨⟨r, g, hg⟩, hx', h⟩ := bind_ok h
      cases h
      obtain ⟨args, rfl, ⟨k, hr, hle⟩, hafter⟩ := ih (.elements _) _ (by dsimp only [Goal.rank]; omega) hx
      obtain ⟨k', hr', hle'⟩ := ih (.links _) _ (by dsimp only [Goal.rank]; omega) hx'
      rw [Cursor.depth_next] at hle hafter
      refine ⟨max k k' + 1, ?_, by omega⟩
      rw [kinds_of_descend hdesc ht (by simp)]
      exact .call hr hr'
    · cases h
  · next hdot hbracket hparen =>
    cases h
    rw [Cursor.token_eq_peek] at hdot hbracket hparen
    refine ⟨0, .linksEnd ?_, .inl rfl⟩
    rintro (ht | ht | ht)
    · exact hdot ht
    · exact hbracket ht
    · exact hparen ht

theorem elements_sound {close : Symbol} {c : Cursor}
    (ih : SoundBelow (16 * c.rest.length + Goal.rank (.elements close))) : Sound (.elements close) c := by
  intro done all after hlt h
  rw [elements] at h
  split at h
  · next hs =>
    cases h
    refine ⟨[], by simp, ⟨0, ?_, .inl rfl⟩, rfl⟩
    rw [Cursor.kinds_of_sees hs]
    exact .noElement
  · next hs =>
    obtain ⟨⟨x, d, hd⟩, hx, h⟩ := bind_ok h
    obtain ⟨⟨k, hr, hle⟩, hdepth⟩ := ih .expression _ (by dsimp only [Goal.rank]; omega) hx
    dsimp only at h
    split at h
    · next hcomma =>
      have := Cursor.next_lt_of_sees hcomma
      obtain ⟨⟨xs, g, hg⟩, hx', h⟩ := bind_ok h
      cases h
      obtain ⟨xs, rfl, ⟨k', hr', hle'⟩, hafter⟩ := ih (.elements _) _ (by dsimp only [Goal.rank]; omega) hx'
      rw [Cursor.depth_next] at hle' hafter
      refine ⟨x :: xs, by simp, ⟨max k k', ?_, by omega⟩, hafter.trans hdepth⟩
      rw [Cursor.kinds_of_sees hcomma] at hr
      exact .element (Cursor.peek_ne_of_not_sees hs) hr hr'
    · next hcomma =>
      obtain ⟨⟨⟨⟩, e, he⟩, hclose, h⟩ := bind_ok h
      cases h
      obtain ⟨hk, hedepth⟩ := expect_ok hclose
      refine ⟨[x], by simp, ⟨k, ?_, hle⟩, hedepth.trans hdepth⟩
      have hne := Cursor.peek_ne_of_not_sees hcomma
      rw [hk] at hr hne
      refine .lastElement ?_ (Cursor.peek_ne_of_not_sees hs) hr
      rintro rfl
      exact hne rfl

theorem fields_sound {c : Cursor}
    (ih : SoundBelow (16 * c.rest.length + Goal.rank .fields)) : Sound .fields c := by
  intro done all after hlt h
  rw [fields] at h
  split at h
  · next hs =>
    cases h
    refine ⟨[], by simp, ⟨0, ?_, .inl rfl⟩, rfl⟩
    rw [Cursor.kinds_of_sees hs]
    exact .noField
  · split at h
    · cases h
    · next name hn =>
      have := Cursor.next_lt (fieldName?_ne_eof hn)
      obtain ⟨⟨x, d, hd⟩, hx, h⟩ := bind_ok h
      obtain ⟨⟨k, hr, hle⟩, hdepth⟩ := ih (.fieldValue _) _ (by dsimp only [Goal.rank]; omega) hx
      rw [Cursor.depth_next] at hle hdepth
      have hkinds := Cursor.kinds_eq_cons rfl (fieldName?_ne_eof hn)
      dsimp only at h
      split at h
      · next hcomma =>
        have := Cursor.next_lt_of_sees hcomma
        obtain ⟨⟨xs, g, hg⟩, hx', h⟩ := bind_ok h
        cases h
        obtain ⟨xs, rfl, ⟨k', hr', hle'⟩, hafter⟩ := ih .fields _ (by dsimp only [Goal.rank]; omega) hx'
        rw [Cursor.depth_next] at hle' hafter
        refine ⟨(name, x) :: xs, by simp, ⟨max k k', ?_, by omega⟩, hafter.trans hdepth⟩
        rw [Cursor.kinds_of_sees hcomma] at hr
        rw [hkinds]
        exact .field hn hr hr'
      · obtain ⟨⟨⟨⟩, e, he⟩, hclose, h⟩ := bind_ok h
        cases h
        obtain ⟨hk, hedepth⟩ := expect_ok hclose
        refine ⟨[(name, x)], by simp, ⟨k, ?_, hle⟩, hedepth.trans hdepth⟩
        rw [hk] at hr
        rw [hkinds]
        exact .lastField hn hr

theorem fieldValue_sound {name : String} {c : Cursor}
    (ih : SoundBelow (16 * c.rest.length + Goal.rank (.fieldValue name))) : Sound (.fieldValue name) c := by
  intro x after hle h
  rw [fieldValue] at h
  split at h
  · next hs =>
    have := Cursor.next_lt_of_sees hs
    obtain ⟨⟨x, d, hd⟩, hx, h⟩ := bind_ok h
    cases h
    obtain ⟨⟨k, hr, hle⟩, hafter⟩ := ih .expression _ (by dsimp only [Goal.rank]; omega) hx
    refine ⟨⟨k, ?_, hle⟩, hafter⟩
    rw [Cursor.kinds_of_sees hs]
    exact .fieldValue hr
  · next hs =>
    cases h
    exact ⟨⟨0, .fieldOnly (Cursor.peek_ne_of_not_sees hs), .inl rfl⟩, rfl⟩

theorem atom_sound {c : Cursor}
    (ih : SoundBelow (16 * c.rest.length + Goal.rank .atom)) : Sound .atom c := by
  intro x after hlt h
  rw [atom] at h
  split at h
  · next hl =>
    cases h
    refine ⟨⟨0, ?_, .inl rfl⟩, rfl⟩
    rw [Cursor.kinds_eq_cons rfl (literal?_ne_eof hl)]
    exact .literal hl
  · split at h
    · next ht =>
      have := Cursor.next_lt (c := c) (by simp [ht])
      obtain ⟨⟨x, d, hd⟩, hx, h⟩ := bind_ok h
      dsimp only at h
      obtain ⟨⟨⟨⟩, e, he⟩, hclose, h⟩ := bind_ok h
      cases h
      obtain ⟨⟨k, hr, hle⟩, hafter⟩ := ih .expression _ (by dsimp only [Goal.rank]; omega) hx
      obtain ⟨hk, hedepth⟩ := expect_ok hclose
      refine ⟨⟨k, ?_, hle⟩, hedepth.trans hafter⟩
      rw [hk] at hr
      rw [Cursor.kinds_eq_cons ht (by simp)]
      exact .parentheses hr
    · next ht =>
      have := Cursor.next_lt (c := c) (by simp [ht])
      obtain ⟨⟨items, d, hd⟩, hx, h⟩ := bind_ok h
      cases h
      obtain ⟨xs, rfl, ⟨k, hr, hle⟩, hafter⟩ := ih (.elements _) _ (by dsimp only [Goal.rank]; omega) hx
      refine ⟨⟨k, ?_, hle⟩, hafter⟩
      rw [Cursor.kinds_eq_cons ht (by simp)]
      exact .array hr
    · next ht =>
      have := Cursor.next_lt (c := c) (by simp [ht])
      obtain ⟨⟨members, d, hd⟩, hx, h⟩ := bind_ok h
      cases h
      obtain ⟨xs, rfl, ⟨k, hr, hle⟩, hafter⟩ := ih .fields _ (by dsimp only [Goal.rank]; omega) hx
      refine ⟨⟨k, ?_, hle⟩, hafter⟩
      rw [Cursor.kinds_eq_cons ht (by simp)]
      exact .object hr
    · next ht =>
      have := Cursor.next_lt (c := c) (by simp [ht])
      obtain ⟨⟨x, d, hd⟩, hx, h⟩ := bind_ok h
      cases h
      obtain ⟨⟨k, hr, hle⟩, hafter⟩ := ih .functionTail _ (by dsimp only [Goal.rank]; omega) hx
      refine ⟨⟨k, ?_, hle⟩, hafter⟩
      rw [Cursor.kinds_eq_cons ht (by simp)]
      exact .atomFunction hr
    · cases h

/-- Every reader is sound at every cursor. -/
theorem sound (g : Goal) (c : Cursor) : Sound g c := by
  suffices h : ∀ n, SoundBelow n from h _ g c (Nat.lt_succ_self _)
  intro n
  induction n with
  | zero => exact fun g c h => absurd h (Nat.not_lt_zero _)
  | succ n ih =>
    intro g c h
    have below : SoundBelow (16 * c.rest.length + g.rank) := fun g' c' h' => ih g' c' (by omega)
    cases g with
    | expression => exact expression_sound below
    | functionTail => exact functionTail_sound below
    | block => exact block_sound below
    | statements => exact statementsFrom_sound below
    | statement => exact statement_sound below
    | conditional => exact conditional_sound below
    | level n => exact binaryLevel_sound below
    | chain n left => exact chain_sound below
    | unary => exact unary_sound below
    | operand => exact operand_sound below
    | links x => exact links_sound below
    | elements close => exact elements_sound below
    | fields => exact fields_sound below
    | fieldValue name => exact fieldValue_sound below
    | atom => exact atom_sound below

/-- A parsed expression is one of the grammar, and semicolons alone stand behind it. -/
theorem parseTokens_reads {ts : Tokens} {x : Expr} (h : parseTokens ts = .ok x) :
    ∃ rest k, Reads .expression (ts.map Prod.fst) x rest k ∧ k ≤ maxDepth ∧
      peek (skipSemicolons rest) = .eof := by
  unfold parseTokens at h
  obtain ⟨⟨x, c, hc⟩, hx, h⟩ := bind_ok h
  obtain ⟨⟨k, hr, hk⟩, -⟩ := sound .expression _ hx
  dsimp only at h hk
  split at h
  · next he =>
    cases h
    rw [Cursor.token_eq_peek, Cursor.kinds_behindSemicolons] at he
    exact ⟨c.kinds, k, hr, by omega, he⟩
  · cases h

/-- The same from a text. -/
theorem parseExpression_reads {text : String} {x : Expr} (h : parseExpression text = .ok x) :
    ∃ ts rest k, tokenize text = .ok ts ∧ Reads .expression (ts.map Prod.fst) x rest k ∧
      k ≤ maxDepth ∧ peek (skipSemicolons rest) = .eof := by
  unfold parseExpression at h
  split at h
  · next ts hts =>
    obtain ⟨rest, k, h⟩ := parseTokens_reads h
    exact ⟨ts, rest, k, hts, h⟩
  · cases h

/-- A function literal is an expression that is a function. -/
theorem parseFunction_ok {text : String} {f : Lambda} (h : parseFunction text = .ok f) :
    parseExpression text = .ok (.function f.params f.body) := by
  obtain ⟨e, he, h⟩ := bind_ok h
  split at h
  · cases h
    exact he
  · cases h

/-- And an expression that is a function is a function literal. -/
theorem parseFunction_of_expression {text : String} {params : List String} {body : Body}
    (h : parseExpression text = .ok (.function params body)) : parseFunction text = .ok ⟨params, body⟩ := by
  rw [parseFunction, h]
  rfl

end LiveNotes.Script
