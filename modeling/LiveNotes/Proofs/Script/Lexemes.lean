import Mathlib.Data.List.Nodup
import Mathlib.Data.List.TakeWhile
import LiveNotes.Proofs.Script.Gaps

/-!
The characters of one token, said without the tokenizer: a symbol that no longer one starts with, a
string from quote to quote, a number and a word that do not go on.

* `Escapes`, `Numeral`: the characters of a string and of a number;
* `Lexeme`: the characters of a token before a given text;
* `exists_lexeme`, `Lexeme.next?_eq`: the tokenizer finds a token where its characters stand, and nowhere
  else;
* `Lexeme.insert`, `Lexeme.of_append`: blanks that are put behind a token do not change it, and what follows
  it can be taken away;
* `position_lt_of_next?`: an error is found at a character of the text.
-/

namespace LiveNotes.Script

open Text

variable {w s rest : List Char} {c : Char} {p : Nat} {t : Token} {after : Source}

/-- Where an error was found. -/
def LexError.position : LexError → Nat
  | .unexpectedChar _ p => p
  | .unterminatedString p => p
  | .invalidEscape _ p => p
  | .invalidNumber _ p => p

/-! ### Strings -/

/-- The characters between the quotes of a string, with those that they stand for. -/
inductive Escapes (quote : Char) : List Char → List Char → Prop where
  | nil : Escapes quote [] []
  | plain {c : Char} {body content : List Char} (hquote : c ≠ quote) (hslash : c ≠ '\\')
      (h : Escapes quote body content) : Escapes quote (c :: body) (c :: content)
  | escape {e c : Char} {body content : List Char} (he : unescape? e = some c)
      (h : Escapes quote body content) : Escapes quote ('\\' :: e :: body) (c :: content)

theorem Escapes.takeString_eq {quote : Char} {body content : List Char} (h : Escapes quote body content)
    (hquote : quote ≠ '\\') (start p : Nat) (done rest : List Char) :
    takeString quote start done p (body ++ quote :: rest) =
      .ok (.string (.ofList (done.reverse ++ content)), ⟨p + body.length + 1, rest⟩) := by
  induction h generalizing p done with
  | nil =>
    rw [List.nil_append, takeString.eq_def]
    dsimp only
    rw [if_pos rfl, List.append_nil]
    rfl
  | plain hne hslash _ ih =>
    rw [List.cons_append, takeString.eq_def]
    dsimp only
    rw [if_neg hne, if_neg hslash, ih, List.reverse_cons, List.append_assoc, List.length_cons]
    congr 3
    omega
  | escape he _ ih =>
    rw [List.cons_append, List.cons_append, takeString.eq_def]
    dsimp only
    rw [if_neg hquote.symm, if_pos rfl, he]
    dsimp only
    rw [ih, List.reverse_cons, List.append_assoc, List.length_cons, List.length_cons]
    congr 3
    omega

theorem exists_escapes {quote : Char} {start : Nat} {done : List Char}
    (h : takeString quote start done p s = .ok (t, after)) : ∃ body content, Escapes quote body content ∧
      s = body ++ quote :: after.rest ∧ after.position = p + body.length + 1 ∧
      t = .string (.ofList (done.reverse ++ content)) := by
  fun_induction takeString quote start done p s with
  | case1 => cases h
  | case2 done p s =>
    cases h
    exact ⟨[], [], .nil, rfl, rfl, by rw [List.append_nil]⟩
  | case3 => cases h
  | case4 done p e s c hc hne ih =>
    obtain ⟨body, content, hbody, rfl, hp, rfl⟩ := ih h
    refine ⟨_, _, .escape hc hbody, rfl, ?_, by simp⟩
    rw [hp, List.length_cons, List.length_cons]
    omega
  | case5 => cases h
  | case6 done p c s hne hslash ih =>
    obtain ⟨body, content, hbody, rfl, hp, rfl⟩ := ih h
    refine ⟨_, _, .plain hne hslash hbody, rfl, ?_, by simp⟩
    rw [hp, List.length_cons]
    omega

/-- A string without an end is reported where it starts, a wrong escape at the character behind the
backslash. -/
theorem position_of_takeString {quote : Char} {start : Nat} {done : List Char} {e : LexError}
    (h : takeString quote start done p s = .error e) :
    e.position = start ∨ e.position < p + s.length := by
  fun_induction takeString quote start done p s with
  | case1 =>
    cases h
    exact .inl rfl
  | case2 => cases h
  | case3 =>
    cases h
    exact .inl rfl
  | case4 done p e s c hc hne ih =>
    refine (ih h).imp_right fun hlt => ?_
    simp only [List.length_cons]
    omega
  | case5 done p e s hc hne =>
    cases h
    refine .inr ?_
    simp only [LexError.position, List.length_cons]
    omega
  | case6 done p c s hne hslash ih =>
    refine (ih h).imp_right fun hlt => ?_
    simp only [List.length_cons]
    omega

/-! ### Numbers -/

/-- Characters that a number may go on with: digits, one point before a digit unless a point or an
exponent came before, exponents with a sign or without before a digit. The first argument says whether a
point or an exponent came before these characters, the last one whether it did at their end. -/
inductive Numeral : Bool → List Char → Bool → Prop where
  | nil {float : Bool} : Numeral float [] float
  | digit {float last : Bool} {c : Char} {w : List Char} (hc : c.isDigit = true)
      (hw : Numeral float w last) : Numeral float (c :: w) last
  | point {last : Bool} {w : List Char} (hdigit : startsWithDigit w = true) (hw : Numeral true w last) :
      Numeral false ('.' :: w) last
  | exponent {float last : Bool} {e : Char} {w : List Char} (he : e = 'e' ∨ e = 'E')
      (hdigit : startsWithDigit w = true) (hw : Numeral true w last) : Numeral float (e :: w) last
  | signed {float last : Bool} {e sign : Char} {w : List Char} (he : e = 'e' ∨ e = 'E')
      (hsign : sign = '+' ∨ sign = '-') (hdigit : startsWithDigit w = true) (hw : Numeral true w last) :
      Numeral float (e :: sign :: w) last

/-- A number does not go on in a text. -/
def NumeralEnds (float : Bool) (s : List Char) : Prop :=
  ∀ w last, Numeral float w last → w <+: s → w = []

/-- A number does not go on behind a text. -/
theorem numeralEnds_nil (float : Bool) : NumeralEnds float [] := fun _ _ _ hp => List.prefix_nil.1 hp

theorem Numeral.of_digits (hw : ∀ d ∈ w, d.isDigit = true) (float : Bool) : Numeral float w float := by
  induction w with
  | nil => exact .nil
  | cons c w ih =>
    obtain ⟨hc, hw⟩ := List.forall_mem_cons.1 hw
    exact .digit hc (ih hw)

theorem startsWithDigit_append (h : startsWithDigit w = true) (s : List Char) :
    startsWithDigit (w ++ s) = true := by
  cases w with
  | nil => cases h
  | cons c w => exact h

theorem exponent_ne {e : Char} (he : e = 'e' ∨ e = 'E') : e.isDigit = false ∧ e ≠ '.' := by
  rcases he with rfl | rfl
  · decide
  · decide

theorem isDigit_sign {sign : Char} (hsign : sign = '+' ∨ sign = '-') : sign.isDigit = false := by
  rcases hsign with rfl | rfl
  · rfl
  · rfl

/-- The characters of a number are taken. -/
theorem Numeral.takeNumber_append {float last : Bool} (h : Numeral float w last) (done s : List Char) :
    takeNumber float done (w ++ s) = takeNumber last (w.reverse ++ done) s := by
  induction h generalizing done with
  | nil => rfl
  | digit hc _ ih =>
    rw [List.cons_append, takeNumber.eq_def]
    dsimp only
    rw [if_pos hc, ih, List.reverse_cons, List.append_assoc]
    rfl
  | point hdigit _ ih =>
    rw [List.cons_append, takeNumber.eq_def]
    dsimp only
    rw [if_neg (by decide), if_pos ⟨rfl, rfl, startsWithDigit_append hdigit s⟩, ih, List.reverse_cons,
      List.append_assoc]
    rfl
  | exponent he hdigit _ ih =>
    obtain ⟨hnot, hpoint⟩ := exponent_ne he
    rw [List.cons_append, takeNumber.eq_def]
    dsimp only
    rw [if_neg (Bool.eq_false_iff.1 hnot), if_neg fun h => hpoint h.1, if_pos he,
      if_pos (startsWithDigit_append hdigit s), ih, List.reverse_cons, List.append_assoc]
    rfl
  | @signed float last e sign w he hsign hdigit _ ih =>
    obtain ⟨hnot, hpoint⟩ := exponent_ne he
    have hs : ¬ startsWithDigit (sign :: (w ++ s)) = true := Bool.eq_false_iff.1 (isDigit_sign hsign)
    rw [List.cons_append, List.cons_append, takeNumber.eq_def]
    dsimp only
    rw [if_neg (Bool.eq_false_iff.1 hnot), if_neg fun h => hpoint h.1, if_pos he, if_neg hs,
      if_pos ⟨hsign, startsWithDigit_append hdigit s⟩, ih]
    simp

/-- How a text starts in which a number goes on. -/
theorem Numeral.start {float last : Bool} (h : Numeral float w last) (hw : w ≠ []) (hs : w <+: s) :
    ∃ c t, s = c :: t ∧ (c.isDigit = true ∨ (c = '.' ∧ float = false ∧ startsWithDigit t = true) ∨
      (c = 'e' ∨ c = 'E') ∧ (startsWithDigit t = true ∨
        ∃ sign u, t = sign :: u ∧ (sign = '+' ∨ sign = '-') ∧ startsWithDigit u = true)) := by
  obtain ⟨rest, rfl⟩ := hs
  cases h with
  | nil => exact absurd rfl hw
  | digit hc => exact ⟨_, _, rfl, .inl hc⟩
  | point hdigit => exact ⟨_, _, rfl, .inr (.inl ⟨rfl, rfl, startsWithDigit_append hdigit rest⟩)⟩
  | exponent he hdigit => exact ⟨_, _, rfl, .inr (.inr ⟨he, .inl (startsWithDigit_append hdigit rest)⟩)⟩
  | signed he hsign hdigit =>
    exact ⟨_, _, rfl, .inr (.inr ⟨he, .inr ⟨_, _, rfl, hsign, startsWithDigit_append hdigit rest⟩⟩)⟩

/-- Where a number ends, no digit follows. -/
theorem NumeralEnds.startsWithDigit_left {last : Bool} (h : NumeralEnds last rest)
    (hs : startsWithDigit (w ++ rest) = true) : startsWithDigit w = true := by
  cases w with
  | cons c w => exact hs
  | nil =>
    cases rest with
    | nil => cases hs
    | cons c rest => cases h [c] last (.digit hs .nil) ⟨rest, rfl⟩

/-- The characters of a number are as many as there can be. -/
theorem exists_numeral (float : Bool) (done s : List Char) : ∃ w last rest, s = w ++ rest ∧
    Numeral float w last ∧ NumeralEnds last rest ∧
    takeNumber float done s = (last, done.reverse ++ w, rest) := by
  fun_induction takeNumber float done s with
  | case1 float done =>
    exact ⟨[], float, [], rfl, .nil, numeralEnds_nil float, by simp⟩
  | case2 float done c s hd ih =>
    obtain ⟨w, last, rest, rfl, hw, hends, heq⟩ := ih
    exact ⟨c :: w, last, rest, rfl, .digit hd hw, hends, by simp [heq]⟩
  | case3 float done c s hd hp ih =>
    obtain ⟨w, last, rest, rfl, hw, hends, heq⟩ := ih
    obtain ⟨rfl, rfl, hdigit⟩ := hp
    exact ⟨_, last, rest, rfl, .point (hends.startsWithDigit_left hdigit) hw, hends, by simp [heq]⟩
  | case4 float done c s hd hp he hs ih =>
    obtain ⟨w, last, rest, rfl, hw, hends, heq⟩ := ih
    exact ⟨_, last, rest, rfl, .exponent he (hends.startsWithDigit_left hs) hw, hends, by simp [heq]⟩
  | case5 float done c hd he sign t hs hp hn ih =>
    obtain ⟨w, last, rest, rfl, hw, hends, heq⟩ := ih
    exact ⟨_, last, rest, rfl, .signed he hs.1 (hends.startsWithDigit_left hs.2) hw, hends, by simp [heq]⟩
  | case6 float done c hd he sign t hs hp hn =>
    refine ⟨[], float, _, rfl, .nil, fun w last hw hpre => by_contra fun hne => ?_, by simp⟩
    obtain ⟨d, u, hcons, hstart⟩ := hw.start hne hpre
    obtain ⟨rfl, rfl⟩ := List.cons_eq_cons.1 hcons
    rcases hstart with hdigit | hpoint | ⟨-, hdigit | ⟨sign', u', hsign, hrest⟩⟩
    · exact hd hdigit
    · exact hp hpoint
    · exact hn hdigit
    · obtain ⟨rfl, rfl⟩ := List.cons_eq_cons.1 hsign
      exact hs hrest
  | case7 float done c hd he hp hn =>
    refine ⟨[], float, _, rfl, .nil, fun w last hw hpre => by_contra fun hne => ?_, by simp⟩
    obtain ⟨d, u, hcons, hstart⟩ := hw.start hne hpre
    obtain ⟨rfl, rfl⟩ := List.cons_eq_cons.1 hcons
    rcases hstart with hdigit | hpoint | ⟨-, hdigit | ⟨sign, u, hsign, -⟩⟩
    · exact hd hdigit
    · exact hp hpoint
    · exact hn hdigit
    · cases hsign
  | case8 float done c s hd hp he =>
    refine ⟨[], float, _, rfl, .nil, fun w last hw hpre => by_contra fun hne => ?_, by simp⟩
    obtain ⟨d, u, hcons, hstart⟩ := hw.start hne hpre
    obtain ⟨rfl, rfl⟩ := List.cons_eq_cons.1 hcons
    rcases hstart with hdigit | hpoint | ⟨hletter, -⟩
    · exact hd hdigit
    · exact hp hpoint
    · exact he hletter

/-- Where a number does not go on, its characters are all that is taken. -/
theorem Numeral.takeNumber_eq {float last : Bool} (h : Numeral float w last) (hends : NumeralEnds last rest) :
    takeNumber float [] (w ++ rest) = (last, w, rest) := by
  obtain ⟨more, last', rest', rfl, hmore, -, heq⟩ := exists_numeral last (w.reverse ++ []) rest
  cases hends more last' hmore (List.prefix_append _ _)
  cases hmore
  rw [h.takeNumber_append, heq]
  simp

theorem Numeral.not_blank {float last : Bool} (h : Numeral float w last) :
    ∀ d ∈ w, isBlank d = false := by
  have exponent {e : Char} (he : e = 'e' ∨ e = 'E') : isBlank e = false := by
    rcases he with rfl | rfl
    · rfl
    · rfl
  induction h with
  | nil => exact nofun
  | digit hc _ ih =>
    refine List.forall_mem_cons.2 ⟨Bool.eq_false_iff.2 fun hb => ?_, ih⟩
    rw [isDigit_of_isBlank hb] at hc
    cases hc
  | point _ _ ih => exact List.forall_mem_cons.2 ⟨rfl, ih⟩
  | exponent he _ _ ih => exact List.forall_mem_cons.2 ⟨exponent he, ih⟩
  | signed he hsign _ _ ih =>
    refine List.forall_mem_cons.2 ⟨exponent he, List.forall_mem_cons.2 ⟨?_, ih⟩⟩
    rcases hsign with rfl | rfl
    · rfl
    · rfl

/-! ### Symbols -/

/-- The two ways to start a comment. -/
def commentMarks : List (List Char) := [['/', '/'], ['/', '*']]

theorem commentMarks_not_blank : ∀ mark ∈ commentMarks, ∀ d ∈ mark, isBlank d = false := by
  have hall : (commentMarks.all fun mark => mark.all fun d => !isBlank d) = true := rfl
  simpa using hall

/-- A token starts at a character that is no blank and starts no comment. -/
theorem next?_blank_eq_none_iff : Gap.next? .blank c s = none ↔
    isBlank c = false ∧ ∀ mark ∈ commentMarks, ¬ mark <+: c :: s := by
  have hmark (d : Char) : ['/', d] <+: c :: s ↔ c = '/' ∧ s.head? = some d := by
    rw [List.cons_prefix_cons, List.head?_eq_some_iff, eq_comm]
    exact and_congr_right fun _ => exists_congr fun u => eq_comm
  simp only [Gap.next?, commentMarks, List.forall_mem_cons, hmark]
  split
  · next hc => simp [hc]
  · next hc =>
    split
    · next hline => simp [hline]
    · next hline =>
      split
      · next hblock => simp [hblock]
      · next hblock => simp [hc, hline, hblock]

theorem Symbol.spelling_injective : Function.Injective Symbol.spelling := fun a b h =>
  List.inj_on_of_nodup_map (l := Symbol.longestFirst) (by decide) a.mem_longestFirst b.mem_longestFirst h

/-- No symbol starts as a name, a number or a string does. -/
theorem Symbol.spelling_head {sym : Symbol} (h : sym.spelling = c :: s) :
    isNamePart c = false ∧ c ≠ '"' ∧ c ≠ '\'' := by
  have hall : (Symbol.longestFirst.all fun sym => sym.spelling.head?.all fun c =>
      !isNamePart c && c != '"' && c != '\'') = true := by decide +kernel
  have hsym := List.all_eq_true.1 hall sym sym.mem_longestFirst
  rw [h] at hsym
  simpa [and_assoc] using hsym

theorem symbol?_eq_some_longest {sym : Symbol} (h : symbol? s = some (sym, rest)) (other : Symbol)
    (ho : other.spelling <+: s) : other.spelling.length ≤ sym.spelling.length := by
  have hsorted : Symbol.longestFirst.Pairwise fun a b => b.spelling.length ≤ a.spelling.length := by
    decide
  obtain ⟨before, a, behind, hlist, ha, hnone⟩ := List.findSome?_eq_some_iff.1 h
  obtain ⟨_, -, heq⟩ := Option.map_eq_some_iff.1 ha
  cases heq
  have hmem := other.mem_longestFirst
  rw [hlist] at hmem hsorted
  rcases List.mem_append.1 hmem with hbefore | hbehind
  · -- the symbols before the one that is found do not start the text
    obtain ⟨u, rfl⟩ := ho
    have := hnone other hbefore
    rw [stripLead?_append] at this
    cases this
  · rcases List.mem_cons.1 hbehind with rfl | hbehind
    · exact Nat.le_refl _
    · exact List.rel_of_pairwise_cons (List.pairwise_append.1 hsorted).2.1 hbehind

theorem symbol?_eq_none_iff : symbol? s = none ↔ ∀ sym : Symbol, ¬ sym.spelling <+: s := by
  rw [symbol?, List.findSome?_eq_none_iff]
  simp only [Option.map_eq_none_iff, stripLead?_eq_none_iff]
  exact ⟨fun h sym => h sym sym.mem_longestFirst, fun h sym _ => h sym⟩

/-- A symbol is found where it is the longest one. -/
theorem symbol?_append {sym : Symbol} (h : ∀ other : Symbol, other.spelling <+: sym.spelling ++ rest →
    other.spelling.length ≤ sym.spelling.length) : symbol? (sym.spelling ++ rest) = some (sym, rest) := by
  cases hs : symbol? (sym.spelling ++ rest) with
  | none => exact absurd (List.prefix_append _ _) (symbol?_eq_none_iff.1 hs sym)
  | some found =>
    obtain ⟨other, rest'⟩ := found
    have heq := symbol?_eq_some hs
    have hle := symbol?_eq_some_longest hs sym (List.prefix_append _ _)
    have hge := h other (heq ▸ List.prefix_append _ _)
    obtain ⟨hspelling, rfl⟩ := List.append_inj heq (Nat.le_antisymm hle hge)
    rw [Symbol.spelling_injective hspelling]

/-- Where a name, a number or a string starts, there is no symbol. -/
theorem symbol?_eq_none (hc : isNamePart c = true ∨ c = '"' ∨ c = '\'') : symbol? (c :: s) = none := by
  refine symbol?_eq_none_iff.2 fun sym hpre => ?_
  obtain ⟨d, u, hd⟩ := List.exists_cons_of_length_pos sym.spelling_length_pos
  obtain ⟨hname, hdouble, hsingle⟩ := Symbol.spelling_head hd
  rw [hd] at hpre
  obtain ⟨rfl, -⟩ := List.cons_prefix_cons.1 hpre
  rcases hc with hc | hc | hc
  · rw [hname] at hc
    cases hc
  · exact hdouble hc
  · exact hsingle hc

/-! ### Tokens -/

/-- The characters of a token before `rest`. A symbol starts no comment and no longer symbol, a number
and a word do not go on in `rest`. -/
inductive Lexeme (rest : List Char) : List Char → Token → Prop where
  | symbol {sym : Symbol} (hmark : ∀ mark ∈ commentMarks, ¬ mark <+: sym.spelling ++ rest)
      (hlongest : ∀ other : Symbol, other.spelling <+: sym.spelling ++ rest →
        other.spelling.length ≤ sym.spelling.length) : Lexeme rest sym.spelling (.symbol sym)
  | string {quote : Char} {body content : List Char} (hquote : quote = '"' ∨ quote = '\'')
      (hbody : Escapes quote body content) :
      Lexeme rest (quote :: (body ++ [quote])) (.string (.ofList content))
  | number {c : Char} {w : List Char} {float : Bool} {t : Token} (hc : c.isDigit = true)
      (hw : Numeral false (c :: w) float) (hends : NumeralEnds float rest)
      (ht : numberToken? float (c :: w) = some t) : Lexeme rest (c :: w) t
  | word {c : Char} {w : List Char} (hc : isNameStart c = true) (hw : ∀ d ∈ c :: w, isNamePart d = true)
      (hends : ∀ d, rest.head? = some d → isNamePart d = false) :
      Lexeme rest (c :: w) (.ofWord (.ofList (c :: w)))

theorem Lexeme.length_pos (h : Lexeme rest w t) : 0 < w.length := by
  cases h with
  | symbol => exact Symbol.spelling_length_pos _
  | string => exact Nat.succ_pos _
  | number => exact Nat.succ_pos _
  | word => exact Nat.succ_pos _

/-- Only the end of a text is the token `eof`. -/
theorem Lexeme.ne_eof (h : Lexeme rest w t) : t ≠ .eof := by
  cases h with
  | symbol => exact nofun
  | string => exact nofun
  | @number c w float t hc hw hends ht =>
    rintro rfl
    unfold numberToken? at ht
    split at ht
    · cases ht
    · obtain ⟨_, -, hx⟩ := Option.map_eq_some_iff.1 ht
      cases hx
  | word =>
    unfold Token.ofWord
    split_ifs <;> exact nofun

theorem isNamePart_of_isDigit (h : c.isDigit = true) : isNamePart c = true := by
  simp [isNamePart, isNumeral_of_isDigit h]

theorem isNameStart_of_isDigit (h : c.isDigit = true) : isNameStart c = false := by
  have hd : 48 ≤ c.toNat ∧ c.toNat ≤ 57 := Char.isDigit_iff_toNat.1 h
  have halpha : c.isAlpha = false := by
    rw [← Bool.not_eq_true, isAlpha_iff_toNat]
    omega
  have hascii : ¬ 0x80 ≤ c.toNat := by omega
  have hunderscore : c ≠ '_' := by
    rintro rfl
    cases h
  have hdollar : c ≠ '$' := by
    rintro rfl
    cases h
  simp [isNameStart, isLetter, halpha, hascii, hunderscore, hdollar]

/-- A name, a number or a string starts with no blank and no slash. -/
theorem next?_blank_eq_none (hc : isNamePart c = true ∨ c = '"' ∨ c = '\'') :
    Gap.next? .blank c s = none := by
  have hblank : isBlank c = false := by
    rw [← Bool.not_eq_true]
    intro hb
    rcases hc with hc | rfl | rfl
    · rw [isNamePart_of_isBlank hb] at hc
      cases hc
    · cases hb
    · cases hb
  have hslash : c ≠ '/' := by
    rintro rfl
    rcases hc with hc | hc | hc
    · have : isNamePart '/' = false := by decide +kernel
      rw [this] at hc
      cases hc
    · cases hc
    · cases hc
  rw [Gap.next?, if_neg (by simp [hblank]), if_neg fun h => hslash h.1, if_neg fun h => hslash h.1]

theorem takeWhile_of_head {f : Char → Bool} (h : ∀ d, rest.head? = some d → f d = false) :
    rest.takeWhile f = [] ∧ rest.dropWhile f = rest := by
  cases rest with
  | nil => exact ⟨rfl, rfl⟩
  | cons d rest =>
    have hd := Bool.eq_false_iff.1 (h d rfl)
    exact ⟨List.takeWhile_cons_of_neg hd, List.dropWhile_cons_of_neg hd⟩

/-- The tokenizer finds a token where its characters stand. -/
theorem Lexeme.next?_eq (h : Lexeme rest w t) : ∃ c s, w ++ rest = c :: s ∧
    Gap.next? .blank c s = none ∧ ∀ p, next? p c s = .ok (t, ⟨p + w.length, rest⟩) := by
  cases h with
  | @symbol sym hmark hlongest =>
    obtain ⟨c, u, hu⟩ := List.exists_cons_of_length_pos sym.spelling_length_pos
    have hs : sym.spelling ++ rest = c :: (u ++ rest) := by rw [hu, List.cons_append]
    refine ⟨c, u ++ rest, hs, ?_, fun p => ?_⟩
    · refine next?_blank_eq_none_iff.2 ⟨?_, hs ▸ hmark⟩
      exact sym.spelling_not_blank c (hu ▸ List.mem_cons_self)
    · rw [next?, ← hs, symbol?_append hlongest]
  | @string quote body content hquote hbody =>
    have hne : quote ≠ '\\' := by
      rcases hquote with rfl | rfl
      · decide
      · decide
    refine ⟨quote, body ++ quote :: rest, by simp, next?_blank_eq_none (.inr hquote), fun p => ?_⟩
    rw [next?, symbol?_eq_none (.inr hquote)]
    dsimp only
    rw [if_pos hquote, hbody.takeString_eq hne]
    simp only [List.reverse_nil, List.nil_append, List.length_cons, List.length_append, List.length_nil]
    congr 3
    omega
  | @number c w float t hc hw hends ht =>
    have hname : isNamePart c = true ∨ c = '"' ∨ c = '\'' := .inl (isNamePart_of_isDigit hc)
    have hquote : ¬ (c = '"' ∨ c = '\'') := by
      rintro (rfl | rfl)
      · cases hc
      · cases hc
    have htake : takeNumber false [] (c :: (w ++ rest)) = (float, c :: w, rest) := hw.takeNumber_eq hends
    refine ⟨c, w ++ rest, rfl, next?_blank_eq_none hname, fun p => ?_⟩
    rw [next?, symbol?_eq_none hname]
    dsimp only
    rw [if_neg hquote, if_pos hc, htake]
    dsimp only
    rw [ht]
  | @word c w hc hw hends =>
    have hname : isNamePart c = true := isNamePart_of_isNameStart hc
    have hquote : ¬ (c = '"' ∨ c = '\'') := by
      rintro (rfl | rfl)
      · cases hc
      · cases hc
    have hdigit : ¬ c.isDigit = true := fun hd => by
      rw [isNameStart_of_isDigit hd] at hc
      cases hc
    have htake : (c :: w ++ rest).takeWhile isNamePart = c :: w := by
      rw [List.takeWhile_append_of_pos hw, (takeWhile_of_head hends).1, List.append_nil]
    have hdrop : (c :: w ++ rest).dropWhile isNamePart = rest := by
      rw [List.dropWhile_append_of_pos hw, (takeWhile_of_head hends).2]
    refine ⟨c, w ++ rest, rfl, next?_blank_eq_none (.inl hname), fun p => ?_⟩
    rw [next?, symbol?_eq_none (.inl hname)]
    dsimp only
    rw [if_neg hquote, if_neg hdigit, if_pos hc, ← List.cons_append, htake, hdrop]

/-- What the tokenizer finds is a token with its characters. -/
theorem exists_lexeme (hgap : Gap.next? .blank c s = none) (h : next? p c s = .ok (t, after)) :
    ∃ w, c :: s = w ++ after.rest ∧ after.position = p + w.length ∧ Lexeme after.rest w t := by
  unfold next? at h
  split at h
  · next sym rest hsym =>
    cases h
    have hs := symbol?_eq_some hsym
    refine ⟨sym.spelling, hs, rfl, .symbol ?_ ?_⟩
    · exact hs ▸ (next?_blank_eq_none_iff.1 hgap).2
    · exact hs ▸ symbol?_eq_some_longest hsym
  · split at h
    · next hquote =>
      obtain ⟨body, content, hbody, rfl, hp, rfl⟩ := exists_escapes h
      refine ⟨_, ?_, ?_, .string hquote hbody⟩
      · simp
      · rw [hp]
        simp only [List.length_cons, List.length_append, List.length_nil]
        omega
    · split at h
      · next hd =>
        obtain ⟨w, last, rest, hs, hw, hends, heq⟩ := exists_numeral false [] (c :: s)
        rw [heq] at h
        dsimp only [List.reverse_nil, List.nil_append] at h
        split at h
        · next t' ht =>
          cases h
          cases w with
          | nil =>
            exact absurd (hends [c] last (.digit hd .nil) ⟨s, hs⟩) (List.cons_ne_nil c [])
          | cons d w =>
            obtain ⟨rfl, rfl⟩ := List.cons_eq_cons.1 hs
            exact ⟨_, rfl, rfl, .number hd hw hends ht⟩
        · cases h
      · split at h
        · next hn =>
          cases h
          have hname := isNamePart_of_isNameStart hn
          refine ⟨_, (List.takeWhile_append_dropWhile (p := isNamePart)).symm, rfl, ?_⟩
          have hw : ∀ d ∈ (c :: s).takeWhile isNamePart, isNamePart d = true :=
            fun d hd => List.mem_takeWhile_imp hd
          rw [List.takeWhile_cons_of_pos hname] at hw ⊢
          refine .word hn hw fun d hd => ?_
          have hend := List.head?_dropWhile_not isNamePart (c :: s)
          rw [hd] at hend
          exact hend
        · cases h

/-- An error is found at a character of the text. -/
theorem position_lt_of_next? {e : LexError} (h : next? p c s = .error e) :
    e.position < p + (c :: s).length := by
  have hstart : p < p + (c :: s).length := Nat.lt_add_of_pos_right (Nat.succ_pos _)
  unfold next? at h
  split at h
  · cases h
  · split at h
    · obtain hp | hp := position_of_takeString h
      · exact hp ▸ hstart
      · rw [List.length_cons]
        omega
    · split at h
      · dsimp only at h
        split at h
        · cases h
        · cases h
          exact hstart
      · split at h
        · cases h
        · cases h
          exact hstart

/-! ### Blanks behind a token -/

/-- A token has no blank that it could lose at its end. -/
theorem Lexeme.exists_last (h : Lexeme rest w t) : ∃ u d, w = u ++ [d] ∧ isBlank d = false := by
  have of_forall {w : List Char} (hne : w ≠ []) (hw : ∀ d ∈ w, isBlank d = false) :
      ∃ u d, w = u ++ [d] ∧ isBlank d = false := by
    obtain ⟨u, d, rfl⟩ := (List.eq_nil_or_concat' w).resolve_left hne
    exact ⟨u, d, rfl, hw d (List.mem_append_right _ List.mem_cons_self)⟩
  have hne : w ≠ [] := List.ne_nil_of_length_pos h.length_pos
  cases h with
  | symbol => exact of_forall hne (Symbol.spelling_not_blank _)
  | @string quote body content hquote hbody =>
    refine ⟨quote :: body, quote, rfl, ?_⟩
    rcases hquote with rfl | rfl
    · rfl
    · rfl
  | number hc hw hends ht => exact of_forall hne hw.not_blank
  | word hc hw hends =>
    refine of_forall hne fun d hd => Bool.eq_false_iff.2 fun hb => ?_
    have hname := hw d hd
    rw [isNamePart_of_isBlank hb] at hname
    cases hname

/-- With less behind it, a token is the same token. -/
theorem Lexeme.of_append {r v : List Char} (h : Lexeme (r ++ v) w t) : Lexeme r w t := by
  have hpre {u x : List Char} (hu : u <+: x ++ r) : u <+: x ++ (r ++ v) := by
    rw [← List.append_assoc]
    exact hu.trans (List.prefix_append _ _)
  cases h with
  | symbol hmark hlongest =>
    exact .symbol (fun mark hm hu => hmark mark hm (hpre hu)) fun other hu => hlongest other (hpre hu)
  | string hquote hbody => exact .string hquote hbody
  | number hc hw hends ht =>
    exact .number hc hw (fun u last hu hp => hends u last hu (hp.trans (List.prefix_append _ _))) ht
  | word hc hw hends =>
    refine .word hc hw fun d hd => hends d ?_
    rw [List.head?_append, hd]
    rfl

section Insert

variable {b r v : List Char} (hb : ∀ d ∈ b, isBlank d = true)
include hb

/-- Blanks at the end of a text stand behind its tokens. -/
theorem Lexeme.exists_behind {g : List Char} (h : Lexeme rest w t) (hs : s ++ b = g ++ (w ++ rest)) :
    ∃ r, rest = r ++ b ∧ s = g ++ (w ++ r) := by
  rw [← List.append_assoc] at hs
  obtain ⟨a, hw, hrest⟩ | ⟨r, hr, hrest⟩ := List.append_eq_append_iff.1 hs
  · rcases List.eq_nil_or_concat' a with rfl | ⟨x, e, rfl⟩
    · refine ⟨[], hrest.symm, ?_⟩
      rw [List.append_nil] at hw ⊢
      exact hw.symm
    · obtain ⟨u, d, rfl, hd⟩ := h.exists_last
      rw [← List.append_assoc, ← List.append_assoc] at hw
      obtain ⟨-, hlast⟩ := List.append_inj' hw rfl
      have he : isBlank e = true := hb e (by simp [hrest])
      exact absurd (List.singleton_inj.1 hlast).symm (ne_of_isBlank he hd)
  · exact ⟨r, hrest, by rw [hr, List.append_assoc]⟩

/-- What has no blanks and starts a text into which blanks were put starts the text without them. -/
theorem prefix_of_prefix_insert (hw : ∀ d ∈ w, isBlank d = false) (h : w <+: r ++ (b ++ v)) :
    w <+: r ++ v := by
  cases b with
  | nil => exact h
  | cons d b =>
    refine (prefix_of_prefix_append h fun e he hm => ?_).trans (List.prefix_append r v)
    cases he
    exact ne_of_isBlank (hb d List.mem_cons_self) (hw d hm) rfl

/-- Blanks that are put behind a token leave it the same token. -/
theorem Lexeme.insert (h : Lexeme (r ++ v) w t) : Lexeme (r ++ (b ++ v)) w t := by
  cases h with
  | @symbol sym hmark hlongest =>
    rw [← List.append_assoc] at hmark hlongest
    refine .symbol (fun mark hm hpre => hmark mark hm ?_) fun other hpre => hlongest other ?_
    · rw [← List.append_assoc] at hpre
      exact prefix_of_prefix_insert hb (commentMarks_not_blank mark hm) hpre
    · rw [← List.append_assoc] at hpre
      exact prefix_of_prefix_insert hb other.spelling_not_blank hpre
  | string hquote hbody => exact .string hquote hbody
  | number hc hw hends ht =>
    refine .number hc hw (fun u last hu hpre => hends u last hu ?_) ht
    exact prefix_of_prefix_insert hb hu.not_blank hpre
  | word hc hw hends =>
    refine .word hc hw fun d hd => ?_
    cases r with
    | cons e r => exact hends d hd
    | nil =>
      cases b with
      | nil => exact hends d hd
      | cons e b =>
        cases hd
        exact isNamePart_of_isBlank (hb _ List.mem_cons_self)

end Insert

end LiveNotes.Script
