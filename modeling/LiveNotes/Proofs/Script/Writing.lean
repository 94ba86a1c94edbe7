import LiveNotes.Proofs.Script.Integers
import LiveNotes.Proofs.Script.Partition

/-!
Tokens written down in a style of the writer's choice, and read again.

* `Style`: what is left to choose, the quotes of a string and the word of a declaration;
* `Token.written`: the characters of a token; `Token.Writable`: the tokens that have such characters;
* `lexeme_written`: written characters are the token that they were written for;
* `tokenized_joined`, `tokenize_written`: so a text of written tokens with single blanks between them has
  these tokens and no other.
-/

namespace LiveNotes.Script

open Number Text

/-! ### Writing a token -/

/-- What is left to choose in writing a token: the quotes of a string, the word of a declaration. -/
structure Style where
  quote : Char
  declaration : String
  isQuote : quote = '"' ∨ quote = '\''
  isDeclaration : declaration ∈ ["const", "let", "var"]

/-- The words that are no names. -/
def keywords : List String :=
  ["true", "false", "null", "undefined", "function", "return", "const", "let", "var"]

/-- A letter, an underscore or a dollar sign, then more of them and digits, and no keyword. -/
structure IsIdentifier (name : String) : Prop where
  characters : ∃ c w, name.toList = c :: w ∧ isNameStart c = true ∧ ∀ d ∈ w, isNamePart d = true
  notKeyword : name ∉ keywords

/-- Characters with a backslash before each quote and each backslash. -/
def escaped (quote : Char) (s : List Char) : List Char :=
  s.flatMap fun c => if c = quote ∨ c = '\\' then ['\\', c] else [c]

/-- The characters of a token. -/
def Token.written (style : Style) : Token → List Char
  | .float _ | .eof => []
  | .integer n => (integerText n).toList
  | .string s => style.quote :: (escaped style.quote s.toList ++ [style.quote])
  | .boolean true => "true".toList
  | .boolean false => "false".toList
  | .null => "null".toList
  | .undefined => "undefined".toList
  | .identifier name => name.toList
  | .functionWord => "function".toList
  | .returnWord => "return".toList
  | .declareWord => style.declaration.toList
  | .symbol s => s.spelling

/-- The tokens that have characters of their own. Doubles are left out; a minus is a token by itself. -/
def Token.Writable : Token → Prop
  | .float _ | .eof => False
  | .integer n => 0 ≤ n.toInt
  | .identifier name => IsIdentifier name
  | _ => True

/-! ### What may stand behind it -/

section Parted

variable {rest : List Char} (hrest : Parted rest)
include hrest

theorem Parted.isNamePart_head : ∀ d, rest.head? = some d → isNamePart d = false := by
  rintro d hd
  rcases hrest with rfl | ⟨s, rfl⟩
  · cases hd
  · cases hd
    exact isNamePart_of_isBlank rfl

theorem Parted.numeralEnds (float : Bool) : NumeralEnds float rest := by
  rcases hrest with rfl | ⟨s, rfl⟩
  · exact numeralEnds_nil float
  · intro w last hw hpre
    -- a number has no blank in it, so none that starts here
    cases w with
    | nil => rfl
    | cons c w =>
      obtain ⟨rfl, -⟩ := List.cons_prefix_cons.1 hpre
      cases hw.not_blank ' ' List.mem_cons_self

/-- A word is the token that it stands for. -/
theorem lexeme_word {word : String} {c : Char} {w : List Char} (hword : word.toList = c :: w)
    (hc : isNameStart c = true) (hw : ∀ d ∈ w, isNamePart d = true) :
    Lexeme rest word.toList (.ofWord word) := by
  rw [← String.ofList_toList (s := word), String.toList_ofList, hword]
  exact .word hc (List.forall_mem_cons.2 ⟨isNamePart_of_isNameStart hc, hw⟩) hrest.isNamePart_head

/-- A symbol is the token that it spells. -/
theorem lexeme_symbol (sym : Symbol) : Lexeme rest sym.spelling (.symbol sym) := by
  have alone {w : List Char} (hw : ∀ d ∈ w, isBlank d = false) (hpre : w <+: sym.spelling ++ rest) :
      w <+: sym.spelling := by
    refine prefix_of_prefix_append hpre fun d hd hmem => ?_
    rcases hrest with rfl | ⟨s, rfl⟩
    · cases hd
    · cases hd
      cases hw ' ' hmem
  refine .symbol (fun mark hmark hpre => ?_) fun other hpre =>
    (alone other.spelling_not_blank hpre).length_le
  have hnone : ∀ mark ∈ commentMarks, ¬ mark <+: sym.spelling := by cases sym <;> decide
  exact hnone mark hmark (alone (commentMarks_not_blank mark hmark) hpre)

/-- So is a word of small letters. -/
theorem lexeme_smallWord (word : String) (hne : word ≠ "")
    (hw : (word.toList.all fun d => decide (97 ≤ d.toNat ∧ d.toNat ≤ 122)) = true) :
    Lexeme rest word.toList (.ofWord word) := by
  have hstart : ∀ d ∈ word.toList, isNameStart d = true := by
    intro d hd
    have hsmall := of_decide_eq_true (List.all_eq_true.1 hw d hd)
    simp [isNameStart, isLetter, isAlpha_iff_toNat.2 (.inr hsmall)]
  cases hword : word.toList with
  | nil => exact absurd (String.toList_eq_nil_iff.1 hword) hne
  | cons c w =>
    rw [hword] at hstart
    obtain ⟨hc, hw⟩ := List.forall_mem_cons.1 hstart
    rw [← hword]
    exact lexeme_word hrest hword hc fun d hd => isNamePart_of_isNameStart (hw d hd)

end Parted

/-! ### Written tokens are read again -/

/-- A word that is no keyword is a name. -/
theorem ofWord_of_not_mem {name : String} (h : name ∉ keywords) : Token.ofWord name = .identifier name := by
  simp only [keywords, List.mem_cons, List.not_mem_nil, or_false, not_or] at h
  simp [Token.ofWord, h]

/-- Escaped characters stand for the characters that were escaped. -/
theorem escapes_escaped {quote : Char} (hquote : quote = '"' ∨ quote = '\'') (s : List Char) :
    Escapes quote (escaped quote s) s := by
  induction s with
  | nil => exact .nil
  | cons c s ih =>
    rw [escaped, List.flatMap_cons]
    split
    · next hc =>
      refine .escape ?_ ih
      rcases hc with rfl | rfl
      · rcases hquote with rfl | rfl
        · rfl
        · rfl
      · rfl
    · next hc =>
      rw [not_or] at hc
      exact .plain hc.1 hc.2 ih

theorem toList_integerText_of_nonneg {n : Int64} (hn : 0 ≤ n.toInt) :
    (integerText n).toList = Nat.toDigits 10 n.toInt.natAbs := by
  rw [integerText_toList, decide_eq_false (Int.not_lt.2 hn)]
  rfl

/-- The digits of an integer that is not negative are that integer. -/
theorem numberToken?_integerText {n : Int64} (hn : 0 ≤ n.toInt) :
    numberToken? false (integerText n).toList = some (.integer n) := by
  have hfit : fit? (digitsValue (integerText n).toList) = some n := by
    rw [toList_integerText_of_nonneg hn, digitsValue, Nat.ofDigitChars_ten_toDigits, fit?_eq_some]
    omega
  rw [numberToken?, if_neg Bool.false_ne_true, hfit]

variable {style : Style} {rest : List Char} {t : Token}

/-- The characters written for a token are this token, before a blank and at the end of a text. -/
theorem lexeme_written (ht : t.Writable) (hrest : Parted rest) : Lexeme rest (t.written style) t := by
  cases t with
  | float | eof => cases ht
  | integer n =>
    have hdigits := toList_integerText_of_nonneg ht
    have hall : ∀ c ∈ (integerText n).toList, c.isDigit = true := fun _ hc =>
      Nat.isDigit_of_mem_toDigits (by decide) (by decide) (hdigits ▸ hc)
    have htoken := numberToken?_integerText ht
    change Lexeme rest (integerText n).toList _
    obtain ⟨c, w, hw⟩ := List.exists_cons_of_ne_nil (hdigits ▸ Nat.toDigits_ne_nil)
    rw [hw] at hall htoken ⊢
    exact .number (hall c List.mem_cons_self) (.of_digits hall false) (hrest.numeralEnds false) htoken
  | string s =>
    have hescapes := escapes_escaped style.isQuote s.toList
    have hstring : Lexeme rest _ _ := .string style.isQuote hescapes
    rwa [String.ofList_toList] at hstring
  | boolean b =>
    cases b with
    | false => exact lexeme_smallWord hrest "false" (by decide) (by decide)
    | true => exact lexeme_smallWord hrest "true" (by decide) (by decide)
  | null => exact lexeme_smallWord hrest "null" (by decide) (by decide)
  | undefined => exact lexeme_smallWord hrest "undefined" (by decide) (by decide)
  | functionWord => exact lexeme_smallWord hrest "function" (by decide) (by decide)
  | returnWord => exact lexeme_smallWord hrest "return" (by decide) (by decide)
  | declareWord =>
    obtain ⟨quote, word, _, hword⟩ := style
    change Lexeme rest word.toList .declareWord
    simp only [List.mem_cons, List.not_mem_nil, or_false] at hword
    rcases hword with rfl | rfl | rfl
    · exact lexeme_smallWord hrest "const" (by decide) (by decide)
    · exact lexeme_smallWord hrest "let" (by decide) (by decide)
    · exact lexeme_smallWord hrest "var" (by decide) (by decide)
  | identifier name =>
    obtain ⟨⟨c, w, hname, hc, hw⟩, hkeyword⟩ := ht
    have hlexeme := lexeme_word hrest hname hc hw
    rwa [ofWord_of_not_mem hkeyword] at hlexeme
  | symbol s => exact lexeme_symbol hrest s

/-! ### Texts of written tokens -/

/-- The characters of tokens, each in its style, with single blanks between them. -/
def joined (ts : List (Token × Style)) : List Char :=
  [' '].intercalate (ts.map fun t => t.1.written t.2)

/-- A token before a text, with nothing between them. -/
theorem Tokenized.cons {p : Nat} {w s : List Char} {all : List (Token × Nat)} (hw : Lexeme s w t)
    (h : Tokenized (p + w.length) s all) : Tokenized p (w ++ s) ((t, p) :: all) :=
  .token (g := []) .nil hw h

/-- The tokens of such a text are those that it was written for, in their order. -/
theorem tokenized_joined {ts : List (Token × Style)} (h : ∀ t ∈ ts, t.1.Writable) (p : Nat) :
    ∃ all, Tokenized p (joined ts) all ∧ all.map Prod.fst = ts.map Prod.fst ++ [.eof] := by
  have nothing (q : Nat) : Tokenized q [] [(.eof, q)] := .finish ⟨[], [], rfl, .nil, .nil⟩
  induction ts generalizing p with
  | nil => exact ⟨_, nothing p, rfl⟩
  | cons t ts ih =>
    obtain ⟨ht, hts⟩ := List.forall_mem_cons.1 h
    -- behind the first token the text ends, or a blank and the other tokens follow
    obtain ⟨s, hs, hparted, hbehind⟩ : ∃ s, joined (t :: ts) = t.1.written t.2 ++ s ∧ Parted s ∧
        ∀ q, ∃ all, Tokenized q s all ∧ all.map Prod.fst = ts.map Prod.fst ++ [.eof] := by
      cases ts with
      | nil => exact ⟨[], by simp [joined], .inl rfl, fun q => ⟨_, nothing q, rfl⟩⟩
      | cons u ts =>
        refine ⟨' ' :: joined (u :: ts), by simp [joined], .inr ⟨_, rfl⟩, fun q => ?_⟩
        obtain ⟨all, hall, hkinds⟩ := ih hts (q + 1)
        exact ⟨all, (tokenized_filler_append (.blank (c := ' ') rfl .nil)).2 hall, hkinds⟩
    obtain ⟨all, hall, hkinds⟩ := hbehind (p + (t.1.written t.2).length)
    refine ⟨(t.1, p) :: all, ?_, by rw [List.map_cons, hkinds]; rfl⟩
    rw [hs]
    exact .cons (lexeme_written ht hparted) hall

/-- Tokens written with single blanks between them are the tokens of that text. -/
theorem tokenize_written {ts : List (Token × Style)} (h : ∀ t ∈ ts, t.1.Writable) :
    ∃ all, tokenize (.ofList (joined ts)) = .ok all ∧ all.map Prod.fst = ts.map Prod.fst ++ [.eof] := by
  obtain ⟨all, hall, hkinds⟩ := tokenized_joined h 0
  refine ⟨all, ?_, hkinds⟩
  rwa [tokenize_eq_ok_iff_tokenized, String.toList_ofList]

/-- Two slashes that are no comment, a string with its own quote in it, and a name that starts like the
word before it. -/
def slashes (style : Style) : List (Token × Style) :=
  [.symbol .slash, .symbol .slash, .string "it's", .declareWord, .identifier "lets"].map (·, style)

/-- The style of single quotes and `let`. -/
def Style.single : Style := ⟨'\'', "let", .inr rfl, by decide⟩

theorem tokenize_written_slashes : (∀ t ∈ slashes .single, t.1.Writable) ∧
    ∃ all, tokenize "/ / 'it\\'s' let lets" = .ok all ∧ all.map Prod.fst =
      [.symbol .slash, .symbol .slash, .string "it's", .declareWord, .identifier "lets", .eof] := by
  have hname : IsIdentifier "lets" :=
    ⟨⟨'l', ['e', 't', 's'], rfl, rfl, List.all_eq_true.1 rfl⟩, by decide⟩
  have h : ∀ t ∈ slashes .single, t.1.Writable := by simp [slashes, Token.Writable, hname]
  have hjoined : joined (slashes .single) = ['/', ' ', '/', ' ', '\'', 'i', 't', '\\', '\'', 's', '\'', ' ',
      'l', 'e', 't', ' ', 'l', 'e', 't', 's'] := by decide
  have htext : String.ofList (joined (slashes .single)) = "/ / 'it\\'s' let lets" := by
    rw [hjoined]
  obtain ⟨all, hall, hkinds⟩ := tokenize_written h
  rw [htext] at hall
  exact ⟨h, all, hall, hkinds⟩

end LiveNotes.Script
