import LiveNotes.Proofs.Script.Spelling

/-!
The tokens of a text, said one token at a time, and what blanks are not: no letter, no digit and no
character of a symbol, so that they end a name, a number and a symbol.

* `Lexes src ts`: a text has these tokens from some position on; `tokensFrom_eq_ok_iff`;
* `Lexes.of_skipGap`: they begin behind the gap at its start;
* `isNamePart_of_isBlank`, `isDigit_of_isBlank`, `Symbol.spelling_not_blank`: blanks are part of no name, no
  number and no symbol.
-/

namespace LiveNotes.Script

open Text

/-! ### One token after the other -/

/-- From some position on, a text has these tokens. -/
inductive Lexes : Source → List (Token × Nat) → Prop where
  | finish {src : Source} {p : Nat} (h : skipGap .blank src.position src.rest = ⟨p, []⟩) :
      Lexes src [(.eof, p)]
  | token {src after : Source} {p : Nat} {c : Char} {s : List Char} {t : Token}
      {ts : List (Token × Nat)} (h : skipGap .blank src.position src.rest = ⟨p, c :: s⟩)
      (hn : next? p c s = .ok (t, after)) (ht : Lexes after ts) : Lexes src ((t, p) :: ts)

theorem Lexes.tokensFrom {src : Source} {ts : List (Token × Nat)} (h : Lexes src ts)
    (done : List (Token × Nat)) : tokensFrom done src = .ok (done.reverse ++ ts) := by
  induction h generalizing done with
  | finish h => rw [tokensFrom_end h, List.reverse_cons]
  | token h hn _ ih => rw [tokensFrom_token h hn, ih, List.reverse_cons, List.append_assoc]; rfl

/-- What the tokenizer gives behind the tokens already found are the tokens of the text. -/
theorem tokensFrom_eq_ok_iff {done ts : List (Token × Nat)} {src : Source} :
    tokensFrom done src = .ok ts ↔ ∃ new, Lexes src new ∧ ts = done.reverse ++ new := by
  constructor
  · intro h
    fun_induction tokensFrom done src with
    | case1 done src p hgap =>
      cases h
      exact ⟨_, .finish hgap, List.reverse_cons⟩
    | case2 => cases h
    | case3 done src p c s hgap t after hn ih =>
      obtain ⟨new, hnew, rfl⟩ := ih h
      exact ⟨_, .token hgap hn hnew, by simp⟩
  · rintro ⟨new, hnew, rfl⟩
    exact hnew.tokensFrom done

theorem tokenize_eq_ok_iff {text : String} {ts : List (Token × Nat)} :
    tokenize text = .ok ts ↔ Lexes ⟨0, text.toList⟩ ts := by
  simp [tokenize, tokensFrom_eq_ok_iff]

/-- The tokens of a text begin behind the gap at its start. -/
theorem Lexes.of_skipGap {src src' : Source} {ts : List (Token × Nat)} (h : Lexes src ts)
    (hs : skipGap .blank src'.position src'.rest = skipGap .blank src.position src.rest) :
    Lexes src' ts := by
  cases h with
  | finish h => exact .finish (hs.trans h)
  | token h hn ht => exact .token (hs.trans h) hn ht

/-! ### Characters that no token has -/

/-- The ranges of the blank characters. -/
def blankRanges : List (Nat × Nat) :=
  [(0x09, 0x0D), (0x20, 0x20), (0x85, 0x85), (0xA0, 0xA0), (0x1680, 0x1680), (0x2000, 0x200A),
    (0x2028, 0x2029), (0x202F, 0x202F), (0x205F, 0x205F), (0x3000, 0x3000)]

theorem inRanges_of_isBlank {c : Char} (h : isBlank c = true) : inRanges blankRanges c.toNat = true := by
  simp [isBlank] at h
  simp [inRanges, blankRanges]
  omega

/-- Ranges that lie apart have no code point in common. That they do is left to the kernel to
evaluate, so it is said with the comparison that it has built in. -/
theorem inRanges_eq_false_of_apart {rs ss : List (Nat × Nat)}
    (h : (rs.all fun r => ss.all fun s => (r.2 + 1).ble s.1 || (s.2 + 1).ble r.1) = true) {n : Nat}
    (hn : inRanges rs n = true) : inRanges ss n = false := by
  simp only [List.all_eq_true, Bool.or_eq_true, Nat.ble_eq] at h
  obtain ⟨r, hr, hrn⟩ := inRanges_iff.1 hn
  rw [← Bool.not_eq_true, inRanges_iff]
  rintro ⟨s, hs, hsn⟩
  have := h r hr s hs
  omega

theorem ne_of_isBlank {c d : Char} (hc : isBlank c = true) (hd : isBlank d = false) : c ≠ d := by
  rintro rfl
  rw [hc] at hd
  cases hd

/-- The code points of the letters of ASCII. -/
theorem isAlpha_iff_toNat {c : Char} :
    c.isAlpha = true ↔ (65 ≤ c.toNat ∧ c.toNat ≤ 90) ∨ (97 ≤ c.toNat ∧ c.toNat ≤ 122) := by
  change (decide (65 ≤ c.val ∧ c.val ≤ 90) || (decide (97 ≤ c.val) && decide (c.val ≤ 122))) = true ↔ _
  simp only [Bool.or_eq_true, Bool.and_eq_true, decide_eq_true_eq, UInt32.le_iff_toNat_le]
  exact Iff.rfl

/-- No blank is a letter, a numeral or one of the other characters of a name. -/
theorem isNamePart_of_isBlank {c : Char} (h : isBlank c = true) : isNamePart c = false := by
  have hr := inRanges_of_isBlank h
  have hletter : inRanges letterRanges c.toNat = false :=
    inRanges_eq_false_of_apart (by decide +kernel) hr
  have hnumeral : inRanges numeralRanges c.toNat = false :=
    inRanges_eq_false_of_apart (by decide +kernel) hr
  have halpha : c.isAlpha = false := by
    rw [← Bool.not_eq_true]
    intro ha
    have ha := isAlpha_iff_toNat.1 ha
    simp [isBlank] at h
    omega
  have hdigit : c.isDigit = false := by
    rw [← Bool.not_eq_true]
    intro hd
    have hd : 48 ≤ c.toNat ∧ c.toNat ≤ 57 := Char.isDigit_iff_toNat.1 hd
    simp [isBlank] at h
    omega
  have hunderscore : c ≠ '_' := ne_of_isBlank h (by decide)
  have hdollar : c ≠ '$' := ne_of_isBlank h (by decide)
  simp [isNamePart, isLetter, isNumeral, hletter, hnumeral, halpha, hdigit, hunderscore, hdollar]

theorem isDigit_of_isBlank {c : Char} (h : isBlank c = true) : c.isDigit = false := by
  rw [← Bool.not_eq_true]
  intro hd
  have := isNamePart_of_isBlank h
  simp [isNamePart, isNumeral_of_isDigit hd] at this

theorem Symbol.spelling_not_blank (sym : Symbol) : ∀ c ∈ sym.spelling, isBlank c = false := by
  have hall : (sym.spelling.all fun c => !isBlank c) = true := by cases sym <;> rfl
  simpa using hall

end LiveNotes.Script
