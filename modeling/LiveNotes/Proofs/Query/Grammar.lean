import Mathlib
import LiveNotes.Proofs.Query.RoundTrip

/-!
# The grammar of arguments

How the text in the parentheses of a call is to be read, said without the reader. References and code are
parted at a comma behind which something is assigned. A text can have many such commas, and the grammar
says which one counts.

* `Assigns`, `CutAt`: an assignment at the start of a text, and a cut at a comma with something behind it;
* `LongestCut`, `ShortestCut`: the cut with the most, or the least, text in front of its comma;
* `ReadsFunction`, `ReadsCodeBlock`: the parts of the arguments of `jsFunc` and of `codeBlock`;
* `splitFunction?_iff`, `splitCodeBlock?_iff`: the reader finds these parts;
* `parseQuery_call`: blanks around the parts of a call do not matter, and the text in its parentheses is
  read as it stands, whatever is in it;
* `parseArguments_grammar`: all of it together.
-/

namespace LiveNotes

open Text

variable {name s t u a b v code language before : List Char}

/-! ### The grammar -/

/-- Blanks, a name, blanks and an equals sign, with a value behind them. -/
def Assigns (name s value : List Char) : Prop :=
  ∃ a b, allBlank a = true ∧ allBlank b = true ∧ s = a ++ (name ++ (b ++ '=' :: value))

section Cuts

variable {α : Type}

/-- A text cut at a comma: `before` stands in front of it, and the text behind it gives `x`. -/
def CutAt (Gives : List Char → α → Prop) (s before : List Char) (x : α) : Prop :=
  ∃ behind, s = before ++ ',' :: behind ∧ Gives behind x

/-- The cut with the longest text in front of the comma. -/
structure LongestCut (Gives : List Char → α → Prop) (s before : List Char) (x : α) : Prop where
  cut : CutAt Gives s before x
  longest : ∀ other y, CutAt Gives s other y → other.length ≤ before.length

/-- The cut with the shortest text in front of the comma. -/
structure ShortestCut (Gives : List Char → α → Prop) (s before : List Char) (x : α) : Prop where
  cut : CutAt Gives s before x
  shortest : ∀ other y, CutAt Gives s other y → before.length ≤ other.length

end Cuts

/-- Something is assigned to `func`. -/
def GivesCode (s code : List Char) : Prop := Assigns "func".toList s code ∧ code ≠ []

/-- A text is assigned to `code` that has, behind one of its commas, an assignment to `lang`. -/
def GivesBlock (s value : List Char) : Prop :=
  Assigns "code".toList s value ∧
    ∃ code language, CutAt (Assigns "lang".toList) value code language

/-- The arguments of `jsFunc` as code and the text of the references in front of it, if there is any. -/
inductive ReadsFunction (s : List Char) : List Char → Option (List Char) → Prop where
  | behind {before code : List Char} (cut : LongestCut GivesCode s before code) :
      ReadsFunction s code (some before)
  | start {code : List Char} (noCut : ∀ before x, ¬ CutAt GivesCode s before x)
      (gives : GivesCode s code) : ReadsFunction s code none

/-- The arguments of `codeBlock` as code, language and the text of the references in front of them, if
there is any. -/
inductive ReadsCodeBlock (s : List Char) : List Char → List Char → Option (List Char) → Prop where
  | behind {before value code language : List Char} (cut : ShortestCut GivesBlock s before value)
      (lang : LongestCut (Assigns "lang".toList) value code language) :
      ReadsCodeBlock s code language (some before)
  | start {value code language : List Char} (noCut : ∀ before x, ¬ CutAt GivesBlock s before x)
      (assigns : Assigns "code".toList s value)
      (lang : LongestCut (Assigns "lang".toList) value code language) :
      ReadsCodeBlock s code language none

/-- The parts between the commas of a text, without the blanks around them; no text has no parts. -/
def trimmedParts (leading : Option (List Char)) : List String :=
  leading.elim [] fun before => (before.splitOn ',').map fun part => .ofList (trim part)

/-! ### The cuts that the reader makes -/

/-- Two commas of a text are the same one, or one of them stands behind the other. -/
theorem append_comma_cases (h : a ++ ',' :: t = b ++ ',' :: u) :
    (a = b ∧ t = u) ∨ (∃ w, b = a ++ ',' :: w ∧ t = w ++ ',' :: u) ∨
      ∃ w, a = b ++ ',' :: w ∧ u = w ++ ',' :: t := by
  rcases List.append_eq_append_iff.1 h with ⟨w, hb, ht⟩ | ⟨w, ha, hu⟩
  · cases w with
    | nil => exact .inl ⟨by simpa using hb.symm, by simpa using ht⟩
    | cons c w =>
      obtain ⟨rfl, hw⟩ := List.cons_eq_cons.1 ht
      exact .inr (.inl ⟨w, hb, hw⟩)
  · cases w with
    | nil => exact .inl ⟨by simpa using ha, by simpa using hu.symm⟩
    | cons c w =>
      obtain ⟨rfl, hw⟩ := List.cons_eq_cons.1 hu
      exact .inr (.inr ⟨w, ha, hw⟩)

section Cuts

variable {α β : Type} {Gives : List Char → α → Prop} {find : List Char → Option β} {x : α}

/-- There is no cut exactly when nothing is found behind any comma. -/
theorem forall_not_cutAt_iff (hfind : ∀ t, find t ≠ none ↔ ∃ y, Gives t y) :
    (∀ before y, ¬ CutAt Gives s before y) ↔ ∀ u, BehindComma s u → find u = none := by
  constructor
  · rintro h u ⟨before, rfl⟩
    by_contra hne
    obtain ⟨y, hy⟩ := (hfind u).1 hne
    exact h before y ⟨u, rfl, hy⟩
  · rintro h before y ⟨u, rfl, hy⟩
    exact (hfind u).2 ⟨y, hy⟩ (h u ⟨before, rfl⟩)

/-- The longest cut is the one behind which nothing is found at any further comma. -/
theorem longestCut_iff (hfind : ∀ t, find t ≠ none ↔ ∃ y, Gives t y) :
    LongestCut Gives s before x ↔
      ∃ t, s = before ++ ',' :: t ∧ Gives t x ∧ ∀ u, BehindComma t u → find u = none := by
  constructor
  · rintro ⟨⟨t, rfl, ht⟩, hlongest⟩
    refine ⟨t, rfl, ht, ?_⟩
    rintro u ⟨w, rfl⟩
    by_contra hne
    obtain ⟨y, hy⟩ := (hfind u).1 hne
    have hlen := hlongest (before ++ ',' :: w) y ⟨u, by simp, hy⟩
    simp at hlen
  · rintro ⟨t, rfl, ht, hnone⟩
    refine ⟨⟨t, rfl, ht⟩, ?_⟩
    rintro other y ⟨u, he, hy⟩
    rcases append_comma_cases he with ⟨rfl, -⟩ | ⟨w, -, rfl⟩ | ⟨w, rfl, -⟩
    · exact le_rfl
    · exact absurd (hnone u ⟨w, rfl⟩) ((hfind u).2 ⟨y, hy⟩)
    · simp

/-- The shortest cut is the one in front of which nothing is found at any comma. -/
theorem shortestCut_iff (hfind : ∀ t, find t ≠ none ↔ ∃ y, Gives t y) :
    ShortestCut Gives s before x ↔
      ∃ t, s = before ++ ',' :: t ∧ Gives t x ∧
        ∀ w, BehindComma before w → find (w ++ ',' :: t) = none := by
  constructor
  · rintro ⟨⟨t, rfl, ht⟩, hshortest⟩
    refine ⟨t, rfl, ht, ?_⟩
    rintro w ⟨other, rfl⟩
    by_contra hne
    obtain ⟨y, hy⟩ := (hfind _).1 hne
    have hlen := hshortest other y ⟨w ++ ',' :: t, by simp, hy⟩
    simp at hlen
  · rintro ⟨t, rfl, ht, hnone⟩
    refine ⟨⟨t, rfl, ht⟩, ?_⟩
    rintro other y ⟨u, he, hy⟩
    rcases append_comma_cases he with ⟨rfl, -⟩ | ⟨w, rfl, -⟩ | ⟨w, rfl, rfl⟩
    · exact le_rfl
    · simp
    · exact absurd (hnone w ⟨other, rfl⟩) ((hfind _).2 ⟨y, hy⟩)

end Cuts

/-! ### The arguments of `jsFunc` -/

theorem code?_iff : code? s = some code ↔ GivesCode s code := by
  rw [code?_eq_some_iff, assigned?_eq_some_iff isKeyword_func, GivesCode, Assigns]

theorem code?_ne_none_iff (t : List Char) : code? t ≠ none ↔ ∃ code, GivesCode t code := by
  simp only [Option.ne_none_iff_exists', code?_iff]

/-- The reader takes the arguments of `jsFunc` apart as the grammar has it. -/
theorem splitFunction?_iff {leading : Option (List Char)} :
    splitFunction? s = some (code, leading) ↔ ReadsFunction s code leading := by
  cases leading with
  | none =>
    rw [splitFunction?_eq_some_none_iff, code?_iff, ← forall_not_cutAt_iff code?_ne_none_iff]
    constructor
    · rintro ⟨hgives, hcut⟩
      exact .start hcut hgives
    · rintro (_ | ⟨hcut, hgives⟩)
      exact ⟨hgives, hcut⟩
  | some before =>
    simp only [splitFunction?_eq_some_iff, code?_iff]
    rw [← longestCut_iff code?_ne_none_iff]
    constructor
    · exact .behind
    · rintro (⟨hcut⟩ | _)
      exact hcut

/-! ### The arguments of `codeBlock` -/

theorem assigned?_lang_ne_none_iff (t : List Char) :
    assigned? "lang".toList t ≠ none ↔ ∃ value, Assigns "lang".toList t value := by
  simp only [Option.ne_none_iff_exists', assigned?_eq_some_iff isKeyword_lang, Assigns]

/-- The last assignment to `lang` makes the longest cut. -/
theorem splitLanguage?_iff : splitLanguage? v = some (code, language) ↔
    LongestCut (Assigns "lang".toList) v code language := by
  rw [splitLanguage?_eq_some_iff, longestCut_iff assigned?_lang_ne_none_iff]
  simp only [assigned?_eq_some_iff isKeyword_lang, Assigns]

/-- Code and language are found in what is assigned to `code` at the start of a text. -/
theorem codeAndLanguage?_iff : codeAndLanguage? s = some (code, language) ↔
    ∃ value, Assigns "code".toList s value ∧
      LongestCut (Assigns "lang".toList) value code language := by
  simp only [codeAndLanguage?, Option.bind_eq_some_iff, splitLanguage?_iff,
    assigned?_eq_some_iff isKeyword_code, Assigns]

/-- They are found as soon as there is one comma with an assignment to `lang` behind it. -/
theorem codeAndLanguage?_ne_none_iff (t : List Char) :
    codeAndLanguage? t ≠ none ↔ ∃ value, GivesBlock t value := by
  constructor
  · intro h
    obtain ⟨⟨code, language⟩, hfound⟩ := Option.ne_none_iff_exists'.1 h
    obtain ⟨value, hvalue, hlang⟩ := codeAndLanguage?_iff.1 hfound
    exact ⟨value, hvalue, code, language, hlang.cut⟩
  · rintro ⟨value, hvalue, code, language, behind, rfl, hlang⟩
    have hcode := (assigned?_eq_some_iff isKeyword_code).2 hvalue
    exact codeAndLanguage?_ne_none hcode ⟨code, rfl⟩ ((assigned?_lang_ne_none_iff _).2 ⟨_, hlang⟩)

/-- The reader takes the arguments of `codeBlock` apart as the grammar has it. -/
theorem splitCodeBlock?_iff {leading : Option (List Char)} :
    splitCodeBlock? s = some (code, language, leading) ↔ ReadsCodeBlock s code language leading := by
  cases leading with
  | none =>
    rw [splitCodeBlock?_eq_some_none_iff, codeAndLanguage?_iff,
      ← forall_not_cutAt_iff codeAndLanguage?_ne_none_iff]
    constructor
    · rintro ⟨⟨value, hvalue, hlang⟩, hcut⟩
      exact .start hcut hvalue hlang
    · rintro (_ | ⟨hcut, hvalue, hlang⟩)
      exact ⟨⟨_, hvalue, hlang⟩, hcut⟩
  | some before =>
    simp only [splitCodeBlock?_eq_some_iff, codeAndLanguage?_iff]
    constructor
    · rintro ⟨t, hs, ⟨value, hvalue, hlang⟩, hnone⟩
      have hgives : GivesBlock t value := ⟨hvalue, code, language, hlang.cut⟩
      exact .behind ((shortestCut_iff codeAndLanguage?_ne_none_iff).2 ⟨t, hs, hgives, hnone⟩) hlang
    · rintro (⟨hcut, hlang⟩ | _)
      obtain ⟨t, hs, hgives, hnone⟩ := (shortestCut_iff codeAndLanguage?_ne_none_iff).1 hcut
      exact ⟨t, hs, ⟨_, hgives.1, hlang⟩, hnone⟩

/-! ### Calls -/

theorem trimmedParts_eq (leading : Option (List Char)) :
    leading.elim [] splitReferences = trimmedParts leading := by
  cases leading with
  | none => rfl
  | some before => exact splitReferences_eq before

/-- A call is read by its name and by exactly what stands in its parentheses. -/
theorem parseQuery_call (custom : List String) (hn : isFunctionName name = true)
    (ha : allBlank a = true) (hb : allBlank b = true) {d : List Char} (hd : allBlank d = true)
    (body : List Char) :
    parseQuery custom (.ofList (a ++ (name ++ (b ++ '(' :: (body ++ ')' :: d))))) =
      match functionNamed? custom (.ofList name) with
      | none => .error (.unknownFunction (.ofList name))
      | some f => (parseArguments f (.ofList body)).map (Query.ofArguments f) := by
  unfold parseQuery
  rw [String.toList_ofList, splitCall?_surrounded hn ha hb hd]
  dsimp only
  cases functionNamed? custom (.ofList name) with
  | none => rfl
  | some f =>
    dsimp only
    cases parseArguments f (.ofList body) <;> rfl

/-- Arguments are read as the grammar has it. For `jsFunc` the code stands behind the last comma that an
assignment to `func` follows, and must not be blank. For `codeBlock` the code starts behind the first
comma that a whole block follows, and ends at its last language. A call is read with exactly the text
that stands in its parentheses. -/
theorem parseArguments_grammar :
    (∀ text args, parseArguments .jsFunc text = .ok args ↔
      ∃ code leading, ReadsFunction text.toList code leading ∧ allBlank code = false ∧
        args = .ofList (trim code) :: trimmedParts leading) ∧
    (∀ text args, parseArguments .codeBlock text = .ok args ↔
      ∃ code language leading, ReadsCodeBlock text.toList code language leading ∧
        args = .ofList (trim code) :: .ofList (trim language) :: trimmedParts leading) ∧
    ∀ custom name body a b d, isFunctionName name = true → allBlank a = true → allBlank b = true →
      allBlank d = true →
      parseQuery custom (.ofList (a ++ (name ++ (b ++ '(' :: (body ++ ')' :: d))))) =
        match functionNamed? custom (.ofList name) with
        | none => .error (.unknownFunction (.ofList name))
        | some f => (parseArguments f (.ofList body)).map (Query.ofArguments f) := by
  refine ⟨fun text args => ?_, fun text args => ?_, fun custom name body a b d hn ha hb hd => ?_⟩
  · rw [parseArguments_jsFunc_eq_ok_iff]
    simp only [splitFunction?_iff, trimmedParts_eq, ne_eq, trim_eq_nil_iff, Bool.not_eq_true,
      eq_comm (a := args)]
  · rw [parseArguments_codeBlock_eq_ok_iff]
    simp only [splitCodeBlock?_iff, trimmedParts_eq, eq_comm (a := args)]
  · exact parseQuery_call custom hn ha hb hd body

/-- A call over two lines whose code is itself assigned behind an assignment, and a block in whose code
another block and another language stand. -/
theorem parseArguments_grammar_nested :
    (isFunctionName "jsFunc".toList = true ∧ allBlank "\n ".toList = true ∧ allBlank ['\t'] = true ∧
      allBlank [' '] = true ∧
      parseQuery [] "\n jsFunc\t(a, func = 1, func = (b) =>\n (b) ) " =
        .ok ⟨.jsFunc, ["(b) =>\n (b)", "a", "func = 1"]⟩) ∧
    (∃ code leading, ReadsFunction "a, func = 1, func = (b) =>\n (b) ".toList code leading ∧
      allBlank code = false ∧
      ["(b) =>\n (b)", "a", "func = 1"] = .ofList (trim code) :: trimmedParts leading) ∧
    ∃ code language leading,
      ReadsCodeBlock "a, code = x, code = f(b, lang = c), lang = py".toList code language leading ∧
      ["x, code = f(b, lang = c)", "py", "a"] =
        .ofList (trim code) :: .ofList (trim language) :: trimmedParts leading := by
  have hname : isFunctionName "jsFunc".toList = true := by decide
  have hcall := parseArguments_grammar.2.2 [] "jsFunc".toList "a, func = 1, func = (b) =>\n (b) ".toList
    "\n ".toList ['\t'] [' '] hname (by decide) (by decide) (by decide)
  refine ⟨⟨hname, by decide, by decide, by decide, hcall.trans (by cbv)⟩, ?_, ?_⟩
  · exact (parseArguments_grammar.1 _ _).1 (by cbv)
  · exact (parseArguments_grammar.2.1 _ _).1 (by cbv)

end LiveNotes
