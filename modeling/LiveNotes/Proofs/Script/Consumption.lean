import LiveNotes.Proofs.Script.Grammar

/-!
The tokens that the grammar takes for what it reads. They stand in front of the tokens that are left, and
of those it looks at the first one only: the same is read before other tokens that begin in the same way,
and a comma behind it may stand for a closing bracket.

* `Stretch g used`: what all tokens taken for a `g` have in common;
* `SameEnd rest rest'`: two endings that the grammar does not tell apart;
* `Detached`: what is read has a stretch of tokens, and is read of it before every such ending;
* `Detached.behind`, …: how the rules put stretches together;
* `Reads.exists_stretch`: all that is read is detached, by induction on the rules;
* `Reads.suffix`: the tokens left are the last of the tokens that were there.
-/

namespace LiveNotes.Script

/-! ### Endings -/

/-- Whether a token stands behind the elements of an array. -/
def separates : Token → Bool
  | .symbol .comma | .symbol .rBracket => true
  | _ => false

/-- Tokens that begin alike: with one token, or each with one that stands behind an element. -/
def SameEnd (rest rest' : List Token) : Prop :=
  peek rest' = peek rest ∨ separates (peek rest) = true ∧ separates (peek rest') = true

section

variable {rest rest' : List Token} (he : SameEnd rest rest')
include he

/-- What is read goes on with the same token or ends before it. -/
theorem SameEnd.append (used : List Token) : SameEnd (used ++ rest) (used ++ rest') := by
  cases used with
  | nil => exact he
  | cons t used => exact .inl rfl

/-- A token that stands behind no element is next in both endings or in none. -/
theorem SameEnd.peek_eq {t : Token} (ht : separates t = false) (h : peek rest' = t) : peek rest = t := by
  rcases he with heq | ⟨-, hs⟩
  · rw [← heq, h]
  · rw [h, ht] at hs
    cases hs

/-- What holds of the next token, and of those that stand behind elements, holds in both endings. -/
theorem SameEnd.of_peek {p : Token → Prop} (hp : ∀ t, separates t = true → p t) (h : p (peek rest)) :
    p (peek rest') := by
  rcases he with heq | ⟨-, hs⟩
  · rwa [heq]
  · exact hp _ hs

end

theorem closes_of_separates {t : Token} (h : separates t = true) : closes t = true := by
  unfold separates at h
  split at h
  · rfl
  · rfl
  · cases h

theorem not_endsReturn_of_separates {t : Token} (h : separates t = true) : endsReturn t = false := by
  unfold separates at h
  split at h
  · rfl
  · rfl
  · cases h

/-! ### Stretches -/

/-- Whether reading takes a token at least. -/
def Goal.advances : Goal → Bool
  | .chain _ _ | .links _ | .fieldValue _ => false
  | _ => true

/-- Whether what is read begins where an expression can begin. -/
def Goal.opens : Goal → Bool
  | .expression | .functionTail | .conditional | .level _ | .unary | .operand | .atom => true
  | _ => false

/-- Tokens that are taken for something: not the end of the text, and with a parenthesis the closing one
too. -/
structure Stretch (g : Goal) (used : List Token) : Prop where
  noEnd : ∀ t ∈ used, t ≠ .eof
  ne_nil : g.advances = true → used ≠ []
  closed : g.opens = true → peek used = .symbol .lParen → .symbol .rParen ∈ used

section

variable {g g' : Goal} {t : Token} {used more : List Token}

/-- Behind a token that opens no parenthesis. -/
theorem Stretch.cons (ht : t ≠ .eof) (hp : t ≠ .symbol .lParen) (h : ∀ s ∈ used, s ≠ .eof) :
    Stretch g (t :: used) :=
  ⟨List.forall_mem_cons.2 ⟨ht, h⟩, fun _ => List.cons_ne_nil _ _, fun _ ht => absurd ht hp⟩

theorem Stretch.single (ht : t ≠ .eof) (hp : t ≠ .symbol .lParen) : Stretch g [t] := .cons ht hp nofun

theorem Stretch.nil (hg : g.advances = false) : Stretch g [] := by
  refine ⟨nofun, fun h => ?_, fun _ => nofun⟩
  rw [hg] at h
  cases h

/-- A stretch of another kind. -/
theorem Stretch.mono (h : Stretch g used) (hg : g.advances = true) (ho : g'.opens = true → g.opens = true) :
    Stretch g' used :=
  ⟨h.noEnd, fun _ => h.ne_nil hg, fun hopens => h.closed (ho hopens)⟩

/-- With more tokens behind it. -/
theorem Stretch.extend (h : Stretch g used) (hne : used ≠ []) (hm : ∀ s ∈ more, s ≠ .eof) :
    Stretch g (used ++ more) := by
  refine ⟨List.forall_mem_append.2 ⟨h.noEnd, hm⟩, fun _ => List.append_ne_nil_of_left_ne_nil hne _, ?_⟩
  intro hopens hp
  obtain ⟨t, us, rfl⟩ := List.exists_cons_of_ne_nil hne
  exact List.mem_append_left _ (h.closed hopens hp)

theorem Stretch.append (h : Stretch g used) (hg : g.advances = true) (ho : g'.opens = true → g.opens = true)
    (hm : ∀ s ∈ more, s ≠ .eof) : Stretch g' (used ++ more) :=
  (h.mono hg ho).extend (h.ne_nil hg) hm

/-- The first token is the first of the stretch. -/
theorem Stretch.peek_append (h : Stretch g used) (hg : g.advances = true) (rest : List Token) :
    peek (used ++ rest) = peek used := by
  obtain ⟨t, us, rfl⟩ := List.exists_cons_of_ne_nil (h.ne_nil hg)
  rfl

theorem Stretch.peek_eq (h : Stretch g used) (hg : g.advances = true) (rest rest' : List Token) :
    peek (used ++ rest') = peek (used ++ rest) := by
  rw [h.peek_append hg, h.peek_append hg]

end

/-! ### Parameters and semicolons -/

theorem nameTokens_spec (params : List String) :
    ∀ t ∈ nameTokens params, t ≠ .eof ∧ t ≠ .symbol .rParen := by
  fun_induction nameTokens params with
  | case1 => exact nofun
  | case2 name => simp
  | case3 name names hne ih => simpa using ih

theorem paramTokens_noEnd (params : List String) : ∀ t ∈ paramTokens params, t ≠ .eof := by
  simp only [paramTokens, List.forall_mem_cons, List.forall_mem_append]
  exact ⟨nofun, fun t ht => (nameTokens_spec params t ht).1, nofun, nofun⟩

theorem rParen_mem_paramTokens (params : List String) : .symbol .rParen ∈ paramTokens params := by
  simp [paramTokens]

theorem stretch_paramTokens (g : Goal) (params : List String) : Stretch g (paramTokens params) :=
  ⟨paramTokens_noEnd params, fun _ => List.cons_ne_nil _ _, fun _ _ => rParen_mem_paramTokens params⟩

/-- A beginning of a parameter list with its closing parenthesis is the whole list. -/
theorem eq_nil_of_rParen_mem {params : List String} {used more : List Token}
    (h : paramTokens params = used ++ more) (hmem : .symbol .rParen ∈ used) : more = [] := by
  rcases List.eq_nil_or_concat more with hnil | ⟨init, last, rfl⟩
  · exact hnil
  · rw [paramTokens, ← List.cons_append, List.concat_eq_append, ← List.append_assoc] at h
    obtain ⟨h, -⟩ := List.append_inj' h rfl
    have hmem : Token.symbol .rParen ∈ .symbol .lParen :: nameTokens params :=
      h ▸ List.mem_append_left _ hmem
    rcases List.mem_cons.1 hmem with hp | hp
    · cases hp
    · exact absurd rfl (nameTokens_spec params _ hp).2

/-- Parameters and their arrow, which any tokens may follow. -/
theorem ArrowHead.exists_head {ts body : List Token} {params : List String} (h : ArrowHead ts params body) :
    ∃ head, ts = head ++ body ∧ Stretch .expression head ∧
      ∀ body', ArrowHead (head ++ body') params body' := by
  rcases h with ⟨name, rfl, rfl⟩ | rfl
  · exact ⟨[.identifier name, .symbol .arrow], rfl, .cons nofun nofun (by simp), fun _ => .inl ⟨name, rfl, rfl⟩⟩
  · have harrow : ∀ s ∈ [Token.symbol .arrow], s ≠ .eof := by simp
    exact ⟨paramTokens params ++ [.symbol .arrow], by simp,
      (stretch_paramTokens _ params).extend (List.cons_ne_nil _ _) harrow, fun body' => .inr (by simp)⟩

/-- An arrow function begins before one ending if it does so before the other one. -/
theorem Stretch.arrowHead {g : Goal} {used rest rest' body : List Token} {params : List String}
    (hs : Stretch g used) (hg : g.advances = true) (ho : g.opens = true) (he : SameEnd rest rest')
    (h : ArrowHead (used ++ rest') params body) : ∃ body', ArrowHead (used ++ rest) params body' := by
  have arrow {b : List Token} (hb : rest' = .symbol .arrow :: b) : ∃ b', rest = .symbol .arrow :: b' := by
    have hpeek : peek rest = .symbol .arrow := he.peek_eq rfl (by rw [hb]; rfl)
    cases rest with
    | nil => cases hpeek
    | cons t rest => exact ⟨rest, congrArg (· :: rest) hpeek⟩
  rcases h with ⟨name, rfl, h⟩ | h
  · rcases List.append_eq_cons_iff.1 h with ⟨rfl, -⟩ | ⟨us, rfl, hus⟩
    · exact absurd rfl (hs.ne_nil hg)
    · rcases List.append_eq_cons_iff.1 hus.symm with ⟨rfl, hb⟩ | ⟨vs, rfl, -⟩
      · obtain ⟨b', rfl⟩ := arrow hb
        exact ⟨b', .inl ⟨name, rfl, rfl⟩⟩
      · exact ⟨vs ++ rest, .inl ⟨name, rfl, rfl⟩⟩
  · rcases List.append_eq_append_iff.1 h with ⟨more, hparams, hb⟩ | ⟨more, hused, hb⟩
    · -- the stretch ends in the parameter list, so behind its closing parenthesis
      have hpeek : peek used = .symbol .lParen := by
        obtain ⟨t, us, rfl⟩ := List.exists_cons_of_ne_nil (hs.ne_nil hg)
        exact (List.cons.inj hparams).1.symm
      obtain rfl := eq_nil_of_rParen_mem hparams (hs.closed ho hpeek)
      rw [List.append_nil] at hparams
      obtain ⟨b', rfl⟩ := arrow hb
      exact ⟨b', .inr (by rw [hparams])⟩
    · rcases List.append_eq_cons_iff.1 hb.symm with ⟨rfl, hb⟩ | ⟨vs, rfl, -⟩
      · obtain ⟨b', rfl⟩ := arrow hb.symm
        exact ⟨b', .inr (by rw [hused, List.append_nil])⟩
      · exact ⟨vs ++ rest, .inr (by rw [hused]; simp)⟩

/-- The semicolons that tokens begin with. -/
theorem exists_semicolons (ts : List Token) : ∃ front, ts = front ++ skipSemicolons ts ∧
    (∀ t ∈ front, t ≠ .eof) ∧ peek (skipSemicolons ts) ≠ .symbol .semicolon ∧
    ∀ more, peek more ≠ .symbol .semicolon → skipSemicolons (front ++ more) = more := by
  induction ts with
  | nil => exact ⟨[], rfl, nofun, nofun, fun more => skipSemicolons_of_peek⟩
  | cons t ts ih =>
    by_cases ht : t = .symbol .semicolon
    · subst ht
      obtain ⟨front, hts, hend, hpeek, hall⟩ := ih
      exact ⟨.symbol .semicolon :: front, congrArg _ hts, List.forall_mem_cons.2 ⟨nofun, hend⟩, hpeek, hall⟩
    · have hskip : skipSemicolons (t :: ts) = t :: ts := skipSemicolons_of_peek ht
      rw [hskip]
      exact ⟨[], rfl, nofun, ht, fun more => skipSemicolons_of_peek⟩

/-! ### Everything that is read -/

/-- What is read is read of a stretch of its own, before every ending that begins like the one there. -/
def Detached (g : Goal) (ts : List Token) (x : g.Result) (rest : List Token) (k : Nat) : Prop :=
  ∃ used, ts = used ++ rest ∧ Stretch g used ∧
    ∀ rest', SameEnd rest rest' → Reads g (used ++ rest') x rest' k

section

variable {g g' g'' : Goal} {ts mid rest : List Token} {x : g.Result} {y : g'.Result} {z : g''.Result}
  {k k' k'' : Nat}

/-- Behind tokens of its own. What is read begins with the same token as before, if it takes one. -/
theorem Detached.behind (h : Detached g ts x rest k) (front : List Token) (hfront : Stretch g' front)
    (hne : front ≠ []) (hrule : ∀ {ts' rest'}, SameEnd ts ts' → (g.advances = true → peek ts' = peek ts) →
      Reads g ts' x rest' k → Reads g' (front ++ ts') y rest' k') :
    Detached g' (front ++ ts) y rest k' := by
  obtain ⟨used, rfl, hs, hall⟩ := h
  refine ⟨front ++ used, (List.append_assoc _ _ _).symm, hfront.extend hne hs.noEnd, fun rest' he => ?_⟩
  rw [List.append_assoc]
  exact hrule (he.append used) (fun hg => hs.peek_eq hg rest rest') (hall rest' he)

/-- The same tokens. -/
theorem Detached.same (h : Detached g ts x rest k) (hg : g.advances = true)
    (ho : g'.opens = true → g.opens = true)
    (hrule : ∀ {ts' rest'}, peek ts' = peek ts → SameEnd rest rest' → Reads g ts' x rest' k →
      Reads g' ts' y rest' k') : Detached g' ts y rest k' := by
  obtain ⟨used, rfl, hs, hall⟩ := h
  exact ⟨used, rfl, hs.mono hg ho, fun rest' he => hrule (hs.peek_eq hg rest rest') he (hall rest' he)⟩

/-- With the symbol that stands behind it, and perhaps tokens in front. -/
theorem Detached.closed (front : List Token) {close : Symbol}
    (h : Detached g ts x (.symbol close :: rest) k)
    (hstretch : ∀ {used}, Stretch g used → (∀ t ∈ used ++ [.symbol close], t ≠ .eof) →
      Stretch g' (front ++ (used ++ [.symbol close])))
    (hrule : ∀ {ts' rest'}, (g.advances = true → peek ts' = peek ts) →
      Reads g ts' x (.symbol close :: rest') k → Reads g' (front ++ ts') y rest' k') :
    Detached g' (front ++ ts) y rest k' := by
  obtain ⟨used, rfl, hs, hall⟩ := h
  have hend : ∀ t ∈ used ++ [.symbol close], t ≠ .eof :=
    List.forall_mem_append.2 ⟨hs.noEnd, List.forall_mem_singleton.2 nofun⟩
  refine ⟨front ++ (used ++ [.symbol close]), by simp, hstretch hs hend, fun rest' _ => ?_⟩
  rw [List.append_assoc, List.append_assoc]
  exact hrule (fun hg => hs.peek_eq hg _ _) (hall _ (.inl rfl))

/-- Two stretches one behind the other. -/
theorem Detached.append (h : Detached g ts x mid k) (h' : Detached g' mid y rest k') (hg : g.advances = true)
    (ho : g''.opens = true → g.opens = true)
    (hrule : ∀ {ts mid rest}, Reads g ts x mid k → Reads g' mid y rest k' → Reads g'' ts z rest k'') :
    Detached g'' ts z rest k'' := by
  obtain ⟨used, rfl, hs, hall⟩ := h
  obtain ⟨more, rfl, hm, hmore⟩ := h'
  refine ⟨used ++ more, (List.append_assoc _ _ _).symm, hs.append hg ho hm.noEnd, fun rest' he => ?_⟩
  rw [List.append_assoc]
  exact hrule (hall _ (he.append more)) (hmore rest' he)

/-- Two stretches with tokens in front and between them, for what begins no expression. -/
theorem Detached.parts (front sep : List Token) (h : Detached g ts x (sep ++ mid) k)
    (h' : Detached g' mid y rest k') (hne : front = [] → g.advances = true) (ho : g''.opens = false)
    (hend : ∀ t ∈ front ++ sep, t ≠ .eof)
    (hrule : ∀ {ts' mid rest}, (g.advances = true → peek ts' = peek ts) → Reads g ts' x (sep ++ mid) k →
      Reads g' mid y rest k' → Reads g'' (front ++ ts') z rest k'') :
    Detached g'' (front ++ ts) z rest k'' := by
  obtain ⟨used, rfl, hs, hall⟩ := h
  obtain ⟨more, rfl, hm, hmore⟩ := h'
  obtain ⟨hfront, hsep⟩ := List.forall_mem_append.1 hend
  refine ⟨front ++ (used ++ (sep ++ more)), by simp, ⟨?_, fun _ hnil => ?_, by simp [ho]⟩, fun rest' he => ?_⟩
  · simp only [List.forall_mem_append]
    exact ⟨hfront, hs.noEnd, hsep, hm.noEnd⟩
  · obtain ⟨hfront, hnil⟩ := List.append_eq_nil_iff.1 hnil
    exact hs.ne_nil (hne hfront) (List.append_eq_nil_iff.1 hnil).1
  · simp only [List.append_assoc]
    exact hrule (fun hg => hs.peek_eq hg _ _) (hall _ ((he.append more).append sep)) (hmore rest' he)

end

/-! Rules that need more than that: where no function may begin, semicolons, and three parts. -/

theorem Detached.noFunction {ts rest : List Token} {x : Expr} {k : Nat}
    (h : Detached .conditional ts x rest k) (hw : peek ts ≠ .functionWord)
    (ha : ∀ params body, ¬ ArrowHead ts params body) : Detached .expression ts x rest (k + 1) := by
  obtain ⟨used, rfl, hs, hall⟩ := h
  refine ⟨used, rfl, hs.mono rfl id, fun rest' he => ?_⟩
  rw [hs.peek_append rfl] at hw
  refine .noFunction (by rwa [hs.peek_append rfl]) (fun params body harrow => ?_) (hall rest' he)
  obtain ⟨body', harrow⟩ := hs.arrowHead rfl rfl he harrow
  exact ha params body' harrow

theorem detached_noStatement {ts rest : List Token} (h : skipSemicolons ts = .symbol .rBrace :: rest) :
    Detached .statements ts [] rest 0 := by
  obtain ⟨front, hts, hend, -, hskip⟩ := exists_semicolons ts
  have hbrace (rest' : List Token) : peek (.symbol .rBrace :: rest') ≠ .symbol .semicolon := by
    simp [peek]
  refine ⟨front ++ [.symbol .rBrace], ?_, ⟨?_, by simp, nofun⟩, fun rest' _ => .noStatement ?_⟩
  · rw [hts, h]
    simp
  · exact List.forall_mem_append.2 ⟨hend, by simp⟩
  · rw [List.append_assoc]
    exact hskip _ (hbrace rest')

theorem Detached.oneStatement {ts mid rest : List Token} {s : Statement} {ss : List Statement} {k k' : Nat}
    (h : Detached .statement (skipSemicolons ts) s mid k) (h' : Detached .statements mid ss rest k')
    (hb : peek (skipSemicolons ts) ≠ .symbol .rBrace) (he : peek (skipSemicolons ts) ≠ .eof) :
    Detached .statements ts (s :: ss) rest (max k k') := by
  obtain ⟨front, hts, hend, hsemi, hskip⟩ := exists_semicolons ts
  obtain ⟨used, heq, hs, hall⟩ := h
  obtain ⟨more, rfl, hm, hmore⟩ := h'
  rw [heq, hs.peek_append rfl] at hb he hsemi
  refine ⟨front ++ (used ++ more), ?_, ⟨?_, fun _ => ?_, nofun⟩, fun rest' hr => ?_⟩
  · rw [hts, heq]
    simp
  · exact List.forall_mem_append.2 ⟨hend, List.forall_mem_append.2 ⟨hs.noEnd, hm.noEnd⟩⟩
  · simp [hs.ne_nil rfl]
  · rw [← hs.peek_append rfl (more ++ rest')] at hb he hsemi
    have hmid : skipSemicolons (front ++ (used ++ more) ++ rest') = used ++ (more ++ rest') := by
      rw [List.append_assoc, List.append_assoc, hskip _ hsemi]
    refine .oneStatement (by rwa [hmid]) (by rwa [hmid]) ?_ (hmore rest' hr)
    rw [hmid]
    exact hall _ (hr.append more)

theorem detached_giveNothing {rest : List Token} (h : endsReturn (peek rest) = true) :
    Detached .statement (.returnWord :: rest) (.give .null) rest 0 := by
  refine ⟨[_], rfl, .single nofun nofun, fun rest' he => .giveNothing ?_⟩
  rcases he with heq | ⟨hsep, -⟩
  · exact heq ▸ h
  · rw [not_endsReturn_of_separates hsep] at h
    cases h

theorem Detached.choice {ts ts' ts'' rest : List Token} {x yes no : Expr} {k k' k'' : Nat}
    (h : Detached (.level levels) ts x (.symbol .question :: ts') k)
    (hy : Detached .expression ts' yes (.symbol .colon :: ts'') k')
    (hn : Detached .expression ts'' no rest k'') :
    Detached .conditional ts (.conditional x yes no) rest (max k (max k' k'')) := by
  obtain ⟨used, rfl, hs, hall⟩ := h
  obtain ⟨yes, rfl, hsy, hyes⟩ := hy
  obtain ⟨no, rfl, hsn, hno⟩ := hn
  refine ⟨used ++ .symbol .question :: (yes ++ .symbol .colon :: no), by simp, hs.append rfl id ?_, ?_⟩
  · simp only [List.forall_mem_cons, List.forall_mem_append]
    exact ⟨nofun, hsy.noEnd, nofun, hsn.noEnd⟩
  · intro rest' he
    have := Reads.choice (hall (_ :: (yes ++ _ :: (no ++ rest'))) (.inl rfl))
      (hyes (_ :: (no ++ rest')) (.inl rfl)) (hno rest' he)
    simpa using this

/-- What is read is read of its tokens, whatever stands behind them. -/
theorem Reads.exists_stretch {g : Goal} {ts rest : List Token} {x : g.Result} {k : Nat}
    (h : Reads g ts x rest k) : Detached g ts x rest k := by
  induction h with
  | wordFunction _ ih => exact ih.behind [_] (.single nofun nofun) nofun fun _ _ => .wordFunction
  | arrowBlock ha _ ih =>
    obtain ⟨head, rfl, hh, harrow⟩ := ha.exists_head
    exact ih.behind head hh (hh.ne_nil rfl) fun _ _ => .arrowBlock (harrow _)
  | arrowExpr ha hb _ ih =>
    obtain ⟨head, rfl, hh, harrow⟩ := ha.exists_head
    exact ih.behind head hh (hh.ne_nil rfl) fun _ hp => .arrowExpr (harrow _) (by rwa [hp rfl])
  | noFunction hw ha _ ih => exact ih.noFunction hw ha
  | @named name params _ _ _ _ _ ih =>
    exact ih.behind (.identifier name :: paramTokens params)
      (.cons nofun nofun (paramTokens_noEnd params)) nofun fun _ _ => .named
  | @nameless params _ _ _ _ _ ih =>
    exact ih.behind (paramTokens params) (stretch_paramTokens _ params) nofun fun _ _ => .nameless
  | braces _ ih => exact ih.behind [_] (.single nofun nofun) nofun fun _ _ => .braces
  | noStatement h => exact detached_noStatement h
  | oneStatement hb he _ _ ih ih' => exact ih.oneStatement ih' hb he
  | declare _ ih => exact ih.behind [_, _, _] (.cons nofun nofun (by simp)) nofun fun _ _ => .declare
  | declareOnly h =>
    exact ⟨[_, _], rfl, .cons nofun nofun (by simp), fun rest' he =>
      .declareOnly fun hp => h (he.peek_eq rfl hp)⟩
  | giveNothing h => exact detached_giveNothing h
  | give he _ ih => exact ih.behind [_] (.single nofun nofun) nofun fun _ hp => .give (by rwa [hp rfl])
  | bare hd hr _ ih =>
    exact ih.same rfl nofun fun hpeek _ => .bare (by rwa [hpeek]) (by rwa [hpeek])
  | unconditional _ hq ih =>
    exact ih.same rfl id fun _ he h => .unconditional h fun hp => hq (he.peek_eq rfl hp)
  | choice _ _ _ ih ihy ihn => exact ih.choice ihy ihn
  | tightest _ ih => exact ih.same rfl id fun _ _ => .tightest
  | level _ _ ih ih' => exact ih.append ih' rfl id .level
  | chainEnd h =>
    refine ⟨[], rfl, .nil rfl, fun rest' he => .chainEnd ?_⟩
    exact he.of_peek (p := fun t => operatorAt? _ t = none)
      (fun t ht => operatorAt?_of_closes (closes_of_separates ht) _) h
  | @chain _ _ _ _ t _ _ _ _ _ _ ho _ _ ih ih' =>
    exact .parts [t] [] ih ih' nofun rfl (by simpa using operatorAt?_ne_eof ho) fun _ => .chain ho
  | noOperator ho _ ih => exact ih.same rfl id fun hpeek _ => .noOperator (by rwa [hpeek])
  | operator ho _ ih =>
    refine ih.behind [_] (.single (unaryOperator?_ne_eof ho) ?_) nofun fun _ _ => .operator ho
    rintro rfl
    cases ho
  | operand _ _ ih ih' => exact ih.append ih' rfl id .operand
  | linksEnd h =>
    refine ⟨[], rfl, .nil rfl, fun rest' he => .linksEnd ?_⟩
    exact he.of_peek (p := fun t => ¬ Links t)
      (fun t ht => not_links_of_closes (closes_of_separates ht)) h
  | member hp _ ih =>
    exact ih.behind [_, _] (.cons nofun nofun (by simp)) nofun fun he _ =>
      .member fun hl => hp (he.peek_eq rfl hl)
  | @methodCall _ _ name _ _ _ _ _ _ _ _ ih ih' =>
    exact .parts [.symbol .dot, .identifier name, .symbol .lParen] [] ih ih' nofun rfl (by simp)
      fun _ => .methodCall
  | index _ _ ih ih' =>
    exact .parts [.symbol .lBracket] [.symbol .rBracket] ih ih' nofun rfl (by simp) fun _ => .index
  | call _ _ ih ih' => exact .parts [.symbol .lParen] [] ih ih' nofun rfl (by simp) fun _ => .call
  | noElement => exact ⟨[_], rfl, ⟨by simp, nofun, nofun⟩, fun _ _ => .noElement⟩
  | element hc _ _ ih ih' =>
    exact .parts [] [.symbol .comma] ih ih' (fun _ => rfl) rfl (by simp) fun hp =>
      .element (by rwa [hp rfl])
  | lastElement hn hc _ ih =>
    exact ih.closed [] (fun hs _ => hs.append rfl nofun (by simp)) fun hp =>
      .lastElement hn (by rwa [hp rfl])
  | noField => exact ⟨[_], rfl, .single nofun nofun, fun _ _ => .noField⟩
  | @field t _ _ _ _ _ _ _ _ hn _ _ ih ih' =>
    exact .parts [t] [.symbol .comma] ih ih' nofun rfl (by simpa using fieldName?_ne_eof hn)
      fun _ => .field hn
  | lastField hn _ ih =>
    exact ih.closed [_] (fun _ hend =>
      ⟨List.forall_mem_cons.2 ⟨fieldName?_ne_eof hn, hend⟩, nofun, nofun⟩) fun _ => .lastField hn
  | fieldValue _ ih => exact ih.behind [_] (.single nofun nofun) nofun fun _ _ => .fieldValue
  | fieldOnly h =>
    exact ⟨[], rfl, .nil rfl, fun rest' he => .fieldOnly fun hp => h (he.peek_eq rfl hp)⟩
  | literal h =>
    refine ⟨[_], rfl, .single (literal?_ne_eof h) ?_, fun _ _ => .literal h⟩
    rintro rfl
    cases h
  | parentheses _ ih =>
    exact ih.closed [_] (fun _ hend =>
      ⟨List.forall_mem_cons.2 ⟨nofun, hend⟩, nofun, fun _ _ => by simp⟩) fun _ => .parentheses
  | array _ ih => exact ih.behind [_] (.single nofun nofun) nofun fun _ _ => .array
  | object _ ih => exact ih.behind [_] (.single nofun nofun) nofun fun _ _ => .object
  | atomFunction _ ih => exact ih.behind [_] (.single nofun nofun) nofun fun _ _ => .atomFunction

/-- The tokens left are the last of the tokens that were there. -/
theorem Reads.suffix {g : Goal} {ts rest : List Token} {x : g.Result} {k : Nat} (h : Reads g ts x rest k) :
    rest <:+ ts := by
  obtain ⟨used, hts, -⟩ := h.exists_stretch
  exact ⟨used, hts.symm⟩

end LiveNotes.Script
