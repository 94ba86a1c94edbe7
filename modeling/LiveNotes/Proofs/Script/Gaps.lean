import LiveNotes.Proofs.Script.Lexing
import LiveNotes.Proofs.Text.Search

/-!
What stands between two tokens, said without the tokenizer: blanks, line comments up to the line end,
block comments up to their end mark. Behind the last token a comment may go on to the end of the text.

* `Filler`, `LastFiller`: the characters between two tokens, and behind the last one;
* `exists_filler`: every text is filler up to a token, or up to its end;
* `skipGap_eq_token_iff`, `skipGap_eq_end_iff`: the tokenizer passes over the filler and nothing else;
* `Filler.of_blank`, `lastFiller_append_blank`: blanks are filler, also behind other filler.
-/

namespace LiveNotes.Script

open Text

/-- Blanks, and comments with what ends them. A line comment has no line end in it, a block comment no
end mark. -/
inductive Filler : List Char → Prop where
  | nil : Filler []
  | blank {c : Char} {g : List Char} (hc : isBlank c = true) (hg : Filler g) : Filler (c :: g)
  | line {body g : List Char} (hbody : '\n' ∉ body) (hg : Filler g) :
      Filler ('/' :: '/' :: (body ++ '\n' :: g))
  | block {body g : List Char} (hbody : ¬ ['*', '/'] <:+: body) (hg : Filler g) :
      Filler ('/' :: '*' :: (body ++ '*' :: '/' :: g))

/-- Nothing, or a comment that nothing ends. -/
inductive Unclosed : List Char → Prop where
  | nil : Unclosed []
  | line {body : List Char} (hbody : '\n' ∉ body) : Unclosed ('/' :: '/' :: body)
  | block {body : List Char} (hbody : ¬ ['*', '/'] <:+: body) : Unclosed ('/' :: '*' :: body)

/-- What may stand behind the last token. -/
def LastFiller (g : List Char) : Prop := ∃ closed last, g = closed ++ last ∧ Filler closed ∧ Unclosed last

variable {g b body : List Char}

theorem Filler.of_blank (hb : ∀ c ∈ b, isBlank c = true) : Filler b := by
  induction b with
  | nil => exact .nil
  | cons c b ih =>
    exact .blank (hb c List.mem_cons_self) (ih fun d hd => hb d (List.mem_cons_of_mem _ hd))

/-! ### Inside a comment -/

theorem skipGap_lineMark (p : Nat) (s : List Char) :
    skipGap .blank p ('/' :: '/' :: s) = skipGap .line (p + 2) s := rfl

theorem skipGap_blockMark (p : Nat) (s : List Char) :
    skipGap .blank p ('/' :: '*' :: s) = skipGap .block (p + 2) s := rfl

/-- A line comment goes on where there is no line end. -/
theorem skipGap_line_append (hbody : '\n' ∉ body) (p : Nat) (s : List Char) :
    skipGap .line p (body ++ s) = skipGap .line (p + body.length) s := by
  induction body generalizing p with
  | nil => rfl
  | cons c body ih =>
    rw [List.mem_cons, not_or] at hbody
    rw [List.cons_append, skipGap, Gap.next?, if_neg (Ne.symm hbody.1)]
    dsimp only
    rw [ih hbody.2, List.length_cons, Nat.add_assoc, Nat.add_comm 1]

/-- A block comment goes on where there is no end mark. It may have seen a star already, unless a slash
comes next. -/
theorem skipGap_block_append (hbody : ¬ ['*', '/'] <:+: body) {gap : Gap}
    (hgap : gap = .block ∨ gap = .blockStar ∧ body.head? ≠ some '/') :
    ∃ gap', (gap' = .block ∨ gap' = .blockStar) ∧
      ∀ p s, skipGap gap p (body ++ s) = skipGap gap' (p + body.length) s := by
  induction body generalizing gap with
  | nil => exact ⟨gap, hgap.imp_right And.left, fun _ _ => rfl⟩
  | cons c body ih =>
    rw [List.infix_cons_iff, not_or] at hbody
    have hnext (s : List Char) : gap.next? c s = some (if c = '*' then .blockStar else .block) := by
      obtain rfl | ⟨rfl, hslash⟩ := hgap
      · rfl
      · have hc : c ≠ '/' := fun h => hslash (congrArg some h)
        rw [Gap.next?, if_neg hc]
    have hstar : (if c = '*' then Gap.blockStar else .block) = .block ∨
        (if c = '*' then Gap.blockStar else .block) = .blockStar ∧ body.head? ≠ some '/' := by
      by_cases hc : c = '*'
      · subst hc
        refine .inr ⟨rfl, fun hslash => hbody.1 ?_⟩
        obtain ⟨t, rfl⟩ := List.head?_eq_some_iff.1 hslash
        exact ⟨t, rfl⟩
      · rw [if_neg hc]
        exact .inl rfl
    obtain ⟨gap', hgap', hall⟩ := ih hbody.2 hstar
    refine ⟨gap', hgap', fun p s => ?_⟩
    rw [List.cons_append, skipGap, hnext]
    dsimp only
    rw [hall, List.length_cons, Nat.add_assoc, Nat.add_comm 1]

/-! ### Filler is passed over -/

theorem Filler.skipGap_append (hg : Filler g) (p : Nat) (s : List Char) :
    skipGap .blank p (g ++ s) = skipGap .blank (p + g.length) s := by
  induction hg generalizing p with
  | nil => rfl
  | @blank c g hc _ ih =>
    rw [List.cons_append, skipGap, Gap.next?, if_pos hc]
    dsimp only
    rw [ih, List.length_cons, Nat.add_assoc, Nat.add_comm 1]
  | @line body g hbody _ ih =>
    have hend (q : Nat) (t : List Char) : skipGap .line q ('\n' :: t) = skipGap .blank (q + 1) t := rfl
    simp only [List.cons_append, List.append_assoc]
    rw [skipGap_lineMark, skipGap_line_append hbody, hend, ih]
    simp only [List.length_cons, List.length_append]
    congr 1
    omega
  | @block body g hbody _ ih =>
    obtain ⟨gap, hgap, hall⟩ := skipGap_block_append hbody (.inl rfl)
    have hend (q : Nat) (t : List Char) :
        skipGap gap q ('*' :: '/' :: t) = skipGap .blank (q + 2) t := by
      obtain rfl | rfl := hgap
      · rfl
      · rfl
    simp only [List.cons_append, List.append_assoc]
    rw [skipGap_blockMark, hall, hend, ih]
    simp only [List.length_cons, List.length_append]
    congr 1
    omega

theorem Unclosed.skipGap_eq (hg : Unclosed g) (p : Nat) : skipGap .blank p g = ⟨p + g.length, []⟩ := by
  cases hg with
  | nil => rfl
  | @line body hbody =>
    have h := skipGap_line_append hbody (p + 2) []
    rw [List.append_nil] at h
    rw [skipGap_lineMark, h, skipGap, List.length_cons, List.length_cons]
    congr 1
    omega
  | @block body hbody =>
    obtain ⟨gap, -, hall⟩ := skipGap_block_append hbody (.inl rfl)
    have h := hall (p + 2) []
    rw [List.append_nil] at h
    rw [skipGap_blockMark, h, skipGap, List.length_cons, List.length_cons]
    congr 1
    omega

/-- Every text is filler up to a token, or up to its end and up to a comment that has none. -/
theorem exists_filler (s : List Char) : ∃ g r, s = g ++ r ∧ Filler g ∧
    (Unclosed r ∨ ∃ c t, r = c :: t ∧ Gap.next? .blank c t = none) := by
  induction h : s.length using Nat.strong_induction_on generalizing s with
  | _ n ih =>
    subst h
    cases s with
    | nil => exact ⟨[], [], rfl, .nil, .inl .nil⟩
    | cons c t =>
      by_cases hc : isBlank c = true
      · obtain ⟨g, r, rfl, hg, hr⟩ := ih t.length (Nat.lt_succ_self _) t rfl
        exact ⟨c :: g, r, rfl, .blank hc hg, hr⟩
      by_cases hline : c = '/' ∧ t.head? = some '/'
      · obtain ⟨rfl, hslash⟩ := hline
        obtain ⟨u, rfl⟩ := List.head?_eq_some_iff.1 hslash
        by_cases hend : '\n' ∈ u
        · obtain ⟨body, v, rfl, hbody⟩ := List.eq_append_cons_of_mem hend
          obtain ⟨g, r, rfl, hg, hr⟩ := ih v.length (by simp; omega) v rfl
          exact ⟨_, r, by simp, .line hbody hg, hr⟩
        · exact ⟨[], _, rfl, .nil, .inl (.line hend)⟩
      by_cases hblock : c = '/' ∧ t.head? = some '*'
      · obtain ⟨rfl, hstar⟩ := hblock
        obtain ⟨u, rfl⟩ := List.head?_eq_some_iff.1 hstar
        cases hcut : cut? ['*', '/'] u with
        | none => exact ⟨[], _, rfl, .nil, .inl (.block (cut?_eq_none_iff.1 hcut))⟩
        | some parts =>
          obtain ⟨body, v⟩ := parts
          have hbody : ¬ ['*', '/'] <:+: body := not_infix_of_cut? (by simp) hcut
          obtain rfl := cut?_eq_some hcut
          obtain ⟨g, r, rfl, hg, hr⟩ := ih v.length (by simp; omega) v rfl
          exact ⟨_, r, by simp, .block hbody hg, hr⟩
      · refine ⟨[], c :: t, rfl, .nil, .inr ⟨c, t, rfl, ?_⟩⟩
        rw [Gap.next?, if_neg hc, if_neg hline, if_neg hblock]

theorem skipGap_token {p : Nat} {c : Char} {t : List Char} (h : Gap.next? .blank c t = none) :
    skipGap .blank p (c :: t) = ⟨p, c :: t⟩ := by
  rw [skipGap, h]

/-- A token starts behind the filler before it. -/
theorem skipGap_eq_token_iff {p q : Nat} {c : Char} {s t : List Char} :
    skipGap .blank p s = ⟨q, c :: t⟩ ↔
      ∃ g, Filler g ∧ s = g ++ c :: t ∧ q = p + g.length ∧ Gap.next? .blank c t = none := by
  constructor
  · intro h
    obtain ⟨g, r, rfl, hg, hr | ⟨d, u, rfl, hu⟩⟩ := exists_filler s
    · rw [hg.skipGap_append, hr.skipGap_eq] at h
      cases h
    · rw [hg.skipGap_append, skipGap_token hu] at h
      cases h
      exact ⟨g, hg, rfl, rfl, hu⟩
  · rintro ⟨g, hg, rfl, rfl, ht⟩
    rw [hg.skipGap_append, skipGap_token ht]

/-- A text without tokens is filler, in which the last comment may go on to the end. -/
theorem skipGap_eq_end_iff {p q : Nat} {s : List Char} :
    skipGap .blank p s = ⟨q, []⟩ ↔ LastFiller s ∧ q = p + s.length := by
  constructor
  · intro h
    obtain ⟨g, r, rfl, hg, hr | ⟨d, u, rfl, hu⟩⟩ := exists_filler s
    · rw [hg.skipGap_append, hr.skipGap_eq] at h
      cases h
      exact ⟨⟨g, r, rfl, hg, hr⟩, by rw [List.length_append, Nat.add_assoc]⟩
    · rw [hg.skipGap_append, skipGap_token hu] at h
      cases h
  · rintro ⟨⟨g, r, rfl, hg, hr⟩, rfl⟩
    rw [hg.skipGap_append, hr.skipGap_eq, List.length_append, Nat.add_assoc]

/-! ### Blanks at the end -/

/-- Where a gap goes on to the end of a text, it goes on through blanks behind it; a token stays. -/
theorem skipGap_append_blank (hb : ∀ c ∈ b, isBlank c = true) (gap : Gap) (p : Nat) (s : List Char) :
    skipGap gap p (s ++ b) = match skipGap gap p s with
      | ⟨q, []⟩ => ⟨q + b.length, []⟩
      | ⟨q, c :: r⟩ => ⟨q, c :: (r ++ b)⟩ := by
  have through : ∀ (gap : Gap) (p : Nat), skipGap gap p b = ⟨p + b.length, []⟩ := by
    induction b with
    | nil => exact fun _ _ => rfl
    | cons d b ih =>
      intro gap p
      have hd : isBlank d = true := hb d List.mem_cons_self
      obtain ⟨gap', hgap⟩ : ∃ gap', gap.next? d b = some gap' := by
        cases gap with
        | blank => exact ⟨.blank, by rw [Gap.next?, if_pos hd]⟩
        | _ => exact ⟨_, rfl⟩
      rw [skipGap, hgap]
      dsimp only
      rw [ih (fun c hc => hb c (List.mem_cons_of_mem _ hc)), List.length_cons]
      congr 1
      omega
  have next (gap : Gap) (c : Char) (s : List Char) : gap.next? c (s ++ b) = gap.next? c s := by
    cases gap with
    | blank =>
      have hhead (d : Char) (hd : isBlank d = false) :
          (s ++ b).head? = some d ↔ s.head? = some d := by
        cases s with
        | cons e s => exact Iff.rfl
        | nil =>
          constructor
          · intro h
            have := hb d (List.mem_of_head? h)
            rw [hd] at this
            cases this
          · intro h
            cases h
      simp only [Gap.next?, hhead '/' (by decide), hhead '*' (by decide)]
    | _ => rfl
  induction s generalizing gap p with
  | nil => exact through gap p
  | cons c s ih =>
    rw [List.cons_append, skipGap, skipGap, next]
    split
    · rfl
    · exact ih _ _

/-- Blanks at the end of the text are filler, even in a comment that goes on to it. -/
theorem lastFiller_append_blank (hb : ∀ c ∈ b, isBlank c = true) :
    LastFiller (g ++ b) ↔ LastFiller g := by
  have hend := skipGap_append_blank hb .blank 0 g
  constructor
  · intro hg
    rw [skipGap_eq_end_iff.2 ⟨hg, rfl⟩] at hend
    split at hend
    · next h => exact (skipGap_eq_end_iff.1 h).1
    · cases hend
  · intro hg
    rw [skipGap_eq_end_iff.2 ⟨hg, rfl⟩] at hend
    exact (skipGap_eq_end_iff.1 hend).1

end LiveNotes.Script
