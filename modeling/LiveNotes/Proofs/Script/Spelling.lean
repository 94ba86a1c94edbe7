import LiveNotes.Script.Lexer

/-!
Tokens written down are read again: words with blanks between them, each the spelling of one token,
are a text with exactly these tokens.

* `Word`: characters that are read as one token where they end at a blank or with the text;
* `tokensFrom_words`, `tokenize_words`: the tokens of a text made of words.
-/

namespace LiveNotes.Script

/-- What stands behind a word: nothing, or a blank. -/
def Parted (s : List Char) : Prop := s = [] ∨ ∃ rest, s = ' ' :: rest

/-- A word that is read as one token wherever it stands alone. -/
def Spells (w : List Char) (t : Token) : Prop :=
  ∃ c s, w = c :: s ∧ ∀ rest, Parted rest → Gap.next? .blank c (s ++ rest) = none ∧
    ∀ p, next? p c (s ++ rest) = .ok (t, ⟨p + w.length, rest⟩)

theorem spells_symbol (sym : Symbol) : Spells sym.spelling (.symbol sym) := by
  cases sym <;>
    refine ⟨_, _, rfl, ?_⟩ <;>
    rintro _ (rfl | ⟨rest, rfl⟩) <;>
    exact ⟨rfl, fun _ => rfl⟩

/-- Characters between quotes are read as they are. -/
theorem takeString_plain {quote : Char} {s : List Char} (hs : ∀ c ∈ s, c ≠ quote ∧ c ≠ '\\')
    (start : Nat) (done : List Char) (p : Nat) (rest : List Char) :
    takeString quote start done p (s ++ quote :: rest) =
      .ok (.string (.ofList (done.reverse ++ s)), ⟨p + s.length + 1, rest⟩) := by
  induction s generalizing done p with
  | nil =>
    rw [List.nil_append, takeString.eq_def]
    simp
  | cons c s ih =>
    obtain ⟨hq, hb⟩ := hs c List.mem_cons_self
    rw [List.cons_append, takeString.eq_def]
    simp only [if_neg hq, if_neg hb]
    rw [ih fun d hd => hs d (List.mem_cons_of_mem _ hd)]
    simp only [List.reverse_cons, List.append_assoc, List.singleton_append, List.length_cons]
    congr 3
    omega

/-- Characters in quotes. -/
def quotedChars (s : List Char) : List Char := '\'' :: (s ++ ['\''])

/-- Plain characters in quotes are a string. -/
theorem spells_string {s : List Char} (hs : ∀ c ∈ s, c ≠ '\'' ∧ c ≠ '\\') :
    Spells (quotedChars s) (.string (.ofList s)) := by
  refine ⟨_, _, rfl, fun rest _ => ⟨rfl, fun p => ?_⟩⟩
  have symbol : symbol? ('\'' :: (s ++ ['\''] ++ rest)) = none := rfl
  rw [next?, symbol]
  simp only [List.append_assoc, List.singleton_append, or_true, if_true]
  rw [takeString_plain hs]
  simp only [quotedChars, List.reverse_nil, List.nil_append, List.length_cons, List.length_append,
    List.length_nil]
  congr 3
  omega

/-- The name `a`, for texts in which any name will do. -/
theorem spells_a : Spells ['a'] (.identifier "a") := by
  refine ⟨_, _, rfl, ?_⟩
  rintro _ (rfl | ⟨rest, rfl⟩)
  · exact ⟨rfl, fun _ => rfl⟩
  · exact ⟨rfl, fun _ => rfl⟩

/-- The spelling of a token. -/
structure Word where
  spelling : List Char
  token : Token
  spells : Spells spelling token

/-- A symbol as a word. -/
def Word.symbol (sym : Symbol) : Word := ⟨sym.spelling, .symbol sym, spells_symbol sym⟩

/-- A string as a word. -/
def Word.string (s : List Char) (hs : ∀ c ∈ s, c ≠ '\'' ∧ c ≠ '\\') : Word :=
  ⟨quotedChars s, .string (.ofList s), spells_string hs⟩

/-- The name `a` as a word. -/
def Word.a : Word := ⟨['a'], .identifier "a", spells_a⟩

/-! ### Texts -/

section

variable {done : List (Token × Nat)} {src after : Source} {p : Nat}

theorem tokensFrom_end (h : skipGap .blank src.position src.rest = ⟨p, []⟩) :
    tokensFrom done src = .ok ((.eof, p) :: done).reverse := by
  rw [tokensFrom]
  split
  · next h' =>
    rw [h] at h'
    cases h'
    rfl
  · next h' =>
    rw [h] at h'
    cases h'

theorem tokensFrom_token {c : Char} {s : List Char} {t : Token}
    (h : skipGap .blank src.position src.rest = ⟨p, c :: s⟩) (hn : next? p c s = .ok (t, after)) :
    tokensFrom done src = tokensFrom ((t, p) :: done) after := by
  rw [tokensFrom]
  split
  · next h' =>
    rw [h] at h'
    cases h'
  · next h' =>
    rw [h] at h'
    cases h'
    split
    · next hn' =>
      rw [hn] at hn'
      cases hn'
    · next hn' =>
      rw [hn] at hn'
      cases hn'
      rfl

end

/-- Words with a blank before each of them. -/
def spaced (words : List Word) : List Char := words.flatMap fun w => ' ' :: w.spelling

theorem parted_spaced (words : List Word) : Parted (spaced words) := by
  cases words with
  | nil => exact .inl rfl
  | cons w words => exact .inr ⟨w.spelling ++ spaced words, rfl⟩

/-- The tokens behind a blank before each word are those that the words spell. -/
theorem tokensFrom_words (words : List Word) (done : List (Token × Nat)) (p : Nat) :
    ∃ ts, tokensFrom done ⟨p, spaced words⟩ = .ok (done.reverse ++ ts) ∧
      ts.map Prod.fst = words.map Word.token ++ [.eof] := by
  induction words generalizing done p with
  | nil => exact ⟨[(.eof, p)], by simp [@tokensFrom_end done ⟨p, []⟩ p rfl, spaced], rfl⟩
  | cons w words ih =>
    obtain ⟨_, t, c, s, rfl, hs⟩ := w
    obtain ⟨hgap, hnext⟩ := hs _ (parted_spaced words)
    obtain ⟨ts, hts, hkinds⟩ := ih ((t, p + 1) :: done) (p + 1 + (c :: s).length)
    refine ⟨(t, p + 1) :: ts, ?_, by simp [hkinds]⟩
    rw [tokensFrom_token (p := p + 1) (c := c) (s := s ++ spaced words) _ (hnext _), hts]
    · simp
    · change skipGap .blank (p + 1) (c :: (s ++ spaced words)) = _
      rw [skipGap, hgap]

/-- A text of words with blanks between them has the tokens that the words spell. -/
theorem tokenize_words (words : List Word) : ∃ ts, tokenize (.ofList (spaced words)) = .ok ts ∧
    ts.map Prod.fst = words.map Word.token ++ [.eof] := by
  obtain ⟨ts, hts, hkinds⟩ := tokensFrom_words words [] 0
  refine ⟨ts, ?_, hkinds⟩
  rw [tokenize, String.toList_ofList, hts]
  rfl

end LiveNotes.Script
