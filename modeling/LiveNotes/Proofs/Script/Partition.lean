import LiveNotes.Proofs.Script.Lexemes
import LiveNotes.Proofs.Text.Blank

/-!
The tokens of a text cut it into pieces: filler, the characters of a token, filler, and so on to the end.
The tokenizer finds this cut, and blanks at a cut do not change it.

* `Tokenized`: a text cut into filler and tokens; `tokenized_iff_lexes`: the tokenizer finds it;
* `Tokenized.exists_front`, `Tokenized.pairwise`, `Tokenized.length_le`: the end of a text is its last
  token, the positions rise, a token has a character of its own;
* `tokenize_partition`: what the tokenizer gives for any text;
* `Tokenized.elsewhere`, `tokenized_filler_append`: what stands before a text only moves its tokens;
* `Tokenized.insert`, `tokenize_insert`: blanks before a token only move what follows them;
* `tokenize_trimmed`, `tokenize_of_trimmed`: a trimmed text has the tokens of the text, and none if the text
  has none.
-/

namespace LiveNotes.Script

open Text

/-- From some position on, a text is filler and the characters of its tokens in turn. -/
inductive Tokenized : Nat → List Char → List (Token × Nat) → Prop where
  | finish {p : Nat} {g : List Char} (hg : LastFiller g) : Tokenized p g [(.eof, p + g.length)]
  | token {p : Nat} {g w rest : List Char} {t : Token} {ts : List (Token × Nat)} (hg : Filler g)
      (hw : Lexeme rest w t) (hts : Tokenized (p + g.length + w.length) rest ts) :
      Tokenized p (g ++ (w ++ rest)) ((t, p + g.length) :: ts)

variable {p : Nat} {s : List Char} {ts : List (Token × Nat)}

theorem Lexes.tokenized {src : Source} (h : Lexes src ts) : Tokenized src.position src.rest ts := by
  induction h with
  | finish hgap =>
    obtain ⟨hg, rfl⟩ := skipGap_eq_end_iff.1 hgap
    exact .finish hg
  | token hgap hn _ ih =>
    obtain ⟨g, hg, hs, rfl, hnone⟩ := skipGap_eq_token_iff.1 hgap
    obtain ⟨w, hw, hp, hlexeme⟩ := exists_lexeme hnone hn
    rw [hs, hw]
    exact .token hg hlexeme (hp ▸ ih)

theorem Tokenized.lexes (h : Tokenized p s ts) : Lexes ⟨p, s⟩ ts := by
  induction h with
  | finish hg => exact .finish (skipGap_eq_end_iff.2 ⟨hg, rfl⟩)
  | token hg hw _ ih =>
    obtain ⟨c, u, hu, hnone, hnext⟩ := hw.next?_eq
    exact .token (skipGap_eq_token_iff.2 ⟨_, hg, by rw [hu], rfl, hnone⟩) (hnext _) ih

/-- The tokenizer cuts a text into filler and tokens. -/
theorem tokenized_iff_lexes : Tokenized p s ts ↔ Lexes ⟨p, s⟩ ts := ⟨Tokenized.lexes, Lexes.tokenized⟩

theorem tokenize_eq_ok_iff_tokenized {text : String} :
    tokenize text = .ok ts ↔ Tokenized 0 text.toList ts :=
  tokenize_eq_ok_iff.trans tokenized_iff_lexes.symm

/-! ### The tokens of a text -/

/-- The last token is the end of the text, and no other one is. -/
theorem Tokenized.exists_front (h : Tokenized p s ts) :
    ∃ front, ts = front ++ [(.eof, p + s.length)] ∧ ∀ t ∈ front, t.1 ≠ .eof := by
  induction h with
  | finish => exact ⟨[], rfl, nofun⟩
  | @token p g w rest t ts hg hw _ ih =>
    obtain ⟨front, rfl, hfront⟩ := ih
    refine ⟨(t, p + g.length) :: front, ?_, List.forall_mem_cons.2 ⟨hw.ne_eof, hfront⟩⟩
    simp only [List.length_append, List.cons_append, Nat.add_assoc]

theorem Tokenized.le (h : Tokenized p s ts) : ∀ t ∈ ts, p ≤ t.2 := by
  induction h with
  | finish => simp
  | token _ _ _ ih =>
    refine List.forall_mem_cons.2 ⟨Nat.le_add_right _ _, fun t ht => ?_⟩
    have := ih t ht
    omega

/-- The positions rise from token to token. -/
theorem Tokenized.pairwise (h : Tokenized p s ts) : (ts.map Prod.snd).Pairwise (· < ·) := by
  induction h with
  | finish => simp
  | token _ hw hts ih =>
    rw [List.map_cons]
    refine List.pairwise_cons.2 ⟨fun q hq => ?_, ih⟩
    obtain ⟨t, ht, rfl⟩ := List.mem_map.1 hq
    have hle := hts.le t ht
    have hpos := hw.length_pos
    omega

/-- Every token but the end has a character of its own. -/
theorem Tokenized.length_le (h : Tokenized p s ts) : ts.length ≤ s.length + 1 := by
  induction h with
  | finish => simp
  | token _ hw _ ih =>
    have hpos := hw.length_pos
    simp only [List.length_cons, List.length_append]
    omega

/-- An error is found at a character of the text. -/
theorem position_lt_of_tokensFrom {done : List (Token × Nat)} {src : Source} {e : LexError}
    (h : tokensFrom done src = .error e) : e.position < src.position + src.rest.length := by
  fun_induction tokensFrom done src with
  | case1 => cases h
  | case2 done src p c s hgap e' hn =>
    cases h
    obtain ⟨g, -, hs, rfl, -⟩ := skipGap_eq_token_iff.1 hgap
    have hlt := position_lt_of_next? hn
    rw [hs, List.length_append]
    omega
  | case3 done src p c s hgap t after hn ih =>
    obtain ⟨g, -, hs, rfl, hnone⟩ := skipGap_eq_token_iff.1 hgap
    obtain ⟨w, hw, hp, -⟩ := exists_lexeme hnone hn
    have hlt := ih h
    rw [hs, hw, List.length_append, List.length_append]
    omega

/-- What the tokenizer gives for a text: tokens that cut it, or an error at one of its characters. -/
theorem tokenize_partition (text : String) :
    match tokenize text with
    | .ok ts =>
      Tokenized 0 text.toList ts ∧
      (∃ front, ts = front ++ [(.eof, text.length)] ∧ ∀ t ∈ front, t.1 ≠ .eof) ∧
      (ts.map Prod.snd).Pairwise (· < ·) ∧ ts.length ≤ text.length + 1
    | .error e => e.position < text.length := by
  cases h : tokenize text with
  | ok ts =>
    have htokens := tokenize_eq_ok_iff_tokenized.1 h
    have hfront := htokens.exists_front
    have hlength := htokens.length_le
    rw [String.length_toList] at hlength
    rw [Nat.zero_add, String.length_toList] at hfront
    exact ⟨htokens, hfront, htokens.pairwise, hlength⟩
  | error e =>
    have hlt := position_lt_of_tokensFrom h
    rwa [Nat.zero_add, String.length_toList] at hlt

/-! ### Positions -/

/-- Tokens with their positions counted from further before. -/
def behind (p : Nat) (ts : List (Token × Nat)) : List (Token × Nat) := ts.map fun t => (t.1, p + t.2)

@[simp] theorem map_fst_behind (p : Nat) (ts : List (Token × Nat)) :
    (behind p ts).map Prod.fst = ts.map Prod.fst := by
  simp [behind]

theorem behind_behind (p q : Nat) (ts : List (Token × Nat)) :
    behind p (behind q ts) = behind (p + q) ts := by
  simp [behind, Nat.add_assoc]

/-- A text has the same tokens wherever it stands, at the same distances from its start. -/
theorem Tokenized.elsewhere (h : Tokenized p s ts) :
    ∃ new, ts = behind p new ∧ ∀ q, Tokenized q s (behind q new) := by
  induction h with
  | @finish p g hg => exact ⟨[(.eof, g.length)], rfl, fun q => .finish hg⟩
  | @token p g w rest t ts hg hw _ ih =>
    obtain ⟨new, rfl, hall⟩ := ih
    refine ⟨(t, g.length) :: behind (g.length + w.length) new, ?_, fun q => ?_⟩
    · rw [Nat.add_assoc, ← behind_behind]
      rfl
    · have htokens := hall (q + g.length + w.length)
      rw [Nat.add_assoc q, ← behind_behind, ← Nat.add_assoc] at htokens
      exact .token hg hw htokens

/-- Filler before a text moves its tokens, and does no more. -/
theorem tokenized_filler_append {g : List Char} (hg : Filler g) :
    Tokenized p (g ++ s) ts ↔ Tokenized (p + g.length) s ts := by
  rw [tokenized_iff_lexes, tokenized_iff_lexes]
  exact ⟨fun h => h.of_skipGap (hg.skipGap_append p s).symm, fun h => h.of_skipGap (hg.skipGap_append p s)⟩

/-! ### Blanks before a token -/

/-- Tokens of which those from a position on are moved. -/
def movedFrom (q n : Nat) (ts : List (Token × Nat)) : List (Token × Nat) :=
  ts.map fun t => (t.1, if q ≤ t.2 then t.2 + n else t.2)

@[simp] theorem map_fst_movedFrom (q n : Nat) (ts : List (Token × Nat)) :
    (movedFrom q n ts).map Prod.fst = ts.map Prod.fst := by
  simp [movedFrom]

theorem movedFrom_behind {p q : Nat} (h : q ≤ p) (n : Nat) (ts : List (Token × Nat)) :
    movedFrom q n (behind p ts) = behind (p + n) ts := by
  rw [movedFrom, behind, behind, List.map_map]
  refine List.map_congr_left fun t _ => ?_
  rw [Function.comp_apply, if_pos (Nat.le_add_right_of_le h), Nat.add_right_comm]

theorem movedFrom_cons_of_lt {q n : Nat} {t : Token × Nat} (h : t.2 < q) :
    movedFrom q n (t :: ts) = t :: movedFrom q n ts := by
  rw [movedFrom, List.map_cons, if_neg (Nat.not_le_of_lt h)]
  rfl

/-- Blanks that are put before a token, or behind the last one, move the tokens from there on. -/
theorem Tokenized.insert {b : List Char} (hb : ∀ c ∈ b, isBlank c = true) (h : Tokenized p s ts) {q : Nat}
    (hq : q ∈ ts.map Prod.snd) : ∃ x v, s = x ++ v ∧ q = p + x.length ∧
      Tokenized p (x ++ (b ++ v)) (movedFrom q b.length ts) := by
  induction h with
  | @finish p g hg =>
    obtain rfl := List.mem_singleton.1 hq
    refine ⟨g, [], (List.append_nil g).symm, rfl, ?_⟩
    have hend := Tokenized.finish (p := p) ((lastFiller_append_blank hb).2 hg)
    have hmoved : movedFrom (p + g.length) b.length [(.eof, p + g.length)] =
        [(.eof, p + (g ++ b).length)] := by
      simp [movedFrom, Nat.add_assoc]
    rwa [hmoved, List.append_nil]
  | @token p g w rest t ts hg hw hts ih =>
    rcases List.mem_cons.1 hq with rfl | hq
    · -- before this token: the blanks are filler, and it moves with all others
      refine ⟨g, w ++ rest, rfl, rfl, ?_⟩
      have hhere : Tokenized (p + g.length) (w ++ rest) ((t, p + g.length) :: ts) :=
        (tokenized_filler_append hg).1 (.token hg hw hts)
      obtain ⟨new, hnew, hall⟩ := hhere.elsewhere
      rw [hnew, movedFrom_behind (Nat.le_refl _)]
      exact (tokenized_filler_append hg).2 ((tokenized_filler_append (.of_blank hb)).2 (hall _))
    · -- before a later token: this one stays, whatever its end looked at
      obtain ⟨x, v, rfl, rfl, hmoved⟩ := ih hq
      refine ⟨g ++ (w ++ x), v, by simp, by simp [Nat.add_assoc], ?_⟩
      have hall := Tokenized.token hg (hw.insert hb) hmoved
      have hpos := hw.length_pos
      have hstays : p + g.length < p + g.length + w.length + x.length := by omega
      rw [movedFrom_cons_of_lt hstays]
      simpa using hall

/-- Blanks before a token of a text, or at its end, only move what follows them. -/
theorem tokenize_insert {text b : String} {q : Nat} (h : tokenize text = .ok ts)
    (hq : q ∈ ts.map Prod.snd) (hb : ∀ c ∈ b.toList, isBlank c = true) :
    tokenize (.ofList (text.toList.take q ++ (b.toList ++ text.toList.drop q))) =
      .ok (movedFrom q b.length ts) := by
  obtain ⟨x, v, hs, hx, hmoved⟩ := (tokenize_eq_ok_iff_tokenized.1 h).insert hb hq
  rw [Nat.zero_add] at hx
  rw [hs, hx, List.take_left, List.drop_left, tokenize_eq_ok_iff_tokenized, String.toList_ofList]
  rwa [hx, String.length_toList] at hmoved

/-- A blank between a number and a letter that could have been its exponent. -/
theorem tokenize_insert_exponent :
    tokenize "x/2e" = .ok [(.identifier "x", 0), (.symbol .slash, 1), (.integer 2, 2),
      (.identifier "e", 3), (.eof, 4)] ∧
    tokenize (.ofList ['x', '/', '2', '\n', 'e']) = .ok [(.identifier "x", 0), (.symbol .slash, 1),
      (.integer 2, 2), (.identifier "e", 4), (.eof, 5)] := by
  have htokens : tokenize "x/2e" = .ok [(.identifier "x", 0), (.symbol .slash, 1), (.integer 2, 2),
      (.identifier "e", 3), (.eof, 4)] :=
    tokenize_eq_ok_iff.2 (.token rfl rfl (.token rfl rfl (.token rfl rfl (.token rfl rfl (.finish rfl)))))
  have hmoved := tokenize_insert (q := 3) (b := "\n") htokens (by simp) (by simp [isBlank])
  exact ⟨htokens, hmoved⟩

/-! ### Trimmed texts -/

section Trimmed

variable {b : List Char} (hb : ∀ c ∈ b, isBlank c = true)
include hb

/-- Blanks behind a text do not change its tokens. -/
theorem Tokenized.of_append_blank (h : Tokenized p (s ++ b) ts) :
    ∃ ts', Tokenized p s ts' ∧ ts'.map Prod.fst = ts.map Prod.fst := by
  generalize hs : s ++ b = u at h
  induction h generalizing s with
  | finish hg => exact ⟨_, .finish ((lastFiller_append_blank hb).1 (hs ▸ hg)), rfl⟩
  | token hg hw _ ih =>
    obtain ⟨r, rfl, rfl⟩ := hw.exists_behind hb hs
    obtain ⟨ts', hts', hkinds⟩ := ih rfl
    exact ⟨_, .token hg hw.of_append hts', by rw [List.map_cons, List.map_cons, hkinds]⟩

/-- The tokens of a text are its tokens as well with blanks behind it; only the end moves. -/
theorem Tokenized.append_blank (h : Tokenized p s ts) :
    ∃ ts', Tokenized p (s ++ b) ts' ∧ ts'.map Prod.fst = ts.map Prod.fst := by
  obtain ⟨front, hfront, -⟩ := h.exists_front
  have hend : p + s.length ∈ ts.map Prod.snd := by simp [hfront]
  obtain ⟨x, v, hs, hx, hmoved⟩ := h.insert hb hend
  have hlength := congrArg List.length hs
  rw [List.length_append] at hlength
  obtain rfl : v = [] := List.eq_nil_of_length_eq_zero (by omega)
  rw [List.append_nil] at hs hmoved
  subst hs
  exact ⟨_, hmoved, map_fst_movedFrom _ _ _⟩

end Trimmed

/-- A trimmed text has the tokens of the text, at other positions. -/
theorem tokenize_trimmed {text : String} (h : tokenize text = .ok ts) :
    ∃ ts', tokenize (trimmed text) = .ok ts' ∧ ts'.map Prod.fst = ts.map Prod.fst := by
  obtain ⟨a, b, ha, hb, htext⟩ := exists_trim text.toList
  rw [allBlank_iff] at ha hb
  rw [tokenize_eq_ok_iff_tokenized, htext, ← List.append_assoc] at h
  obtain ⟨ts', hts', hkinds⟩ := h.of_append_blank hb
  obtain ⟨new, rfl, hall⟩ := ((tokenized_filler_append (.of_blank ha)).1 hts').elsewhere
  refine ⟨behind 0 new, ?_, ?_⟩
  · rw [tokenize_eq_ok_iff_tokenized, trimmed, String.toList_ofList]
    exact hall 0
  · rw [← hkinds, map_fst_behind, map_fst_behind]

/-- A text has the tokens of the trimmed text, at other positions. -/
theorem tokenize_of_trimmed {text : String} (h : tokenize (trimmed text) = .ok ts) :
    ∃ ts', tokenize text = .ok ts' ∧ ts'.map Prod.fst = ts.map Prod.fst := by
  obtain ⟨a, b, ha, hb, htext⟩ := exists_trim text.toList
  rw [allBlank_iff] at ha hb
  rw [tokenize_eq_ok_iff_tokenized, trimmed, String.toList_ofList] at h
  obtain ⟨new, rfl, hall⟩ := h.elsewhere
  have hfront : Tokenized 0 (a ++ trim text.toList) (behind (0 + a.length) new) :=
    (tokenized_filler_append (.of_blank ha)).2 (hall _)
  obtain ⟨ts', hts', hkinds⟩ := hfront.append_blank hb
  refine ⟨ts', ?_, ?_⟩
  · rwa [tokenize_eq_ok_iff_tokenized, htext, ← List.append_assoc]
  · rw [hkinds, map_fst_behind, map_fst_behind]

end LiveNotes.Script
