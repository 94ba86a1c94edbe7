import Mathlib
import LiveNotes.Proofs.Query.Arguments

/-!
A query that was read is written as a text that reads back to it.

* `splitReferences_listed`: references with commas between them;
* `parseArguments_argumentsText`: the arguments of every function;
* `parseQuery_text`: the whole query.
-/

namespace LiveNotes

open Text

variable {name s t u v a b : List Char} {c : Char}

/-! ### References -/

theorem trim_space (s : List Char) : trim (' ' :: s) = trim s := by
  simpa using trim_surrounded (a := [' ']) (b := []) (by decide) rfl s

/-- A text without commas, and without blanks around it. -/
structure IsReference (r : String) : Prop where
  no_comma : ',' ∉ r.toList
  trimmed : trim r.toList = r.toList

theorem splitReferences_eq (s : List Char) :
    splitReferences s = (s.splitOn ',').map fun part => .ofList (trim part) := by
  rw [splitReferences, splitAt_eq_splitOn]

theorem splitReferences_ne_nil (s : List Char) : splitReferences s ≠ [] := by
  rw [splitReferences_eq]
  simp

theorem isReference_of_mem {r : String} (h : r ∈ splitReferences s) : IsReference r := by
  rw [splitReferences_eq] at h
  obtain ⟨part, hp, rfl⟩ := List.mem_map.1 h
  obtain ⟨a, b, -, -, hs⟩ := exists_trim part
  refine ⟨fun hc => not_mem_of_mem_splitOn hp ?_, by simp⟩
  rw [String.toList_ofList] at hc
  rw [hs]
  simp [hc]

/-- The parts between the commas of a list, each but the first behind a space. -/
theorem splitOn_listed (p : List Char) (ps : List (List Char)) (h : ∀ q ∈ p :: ps, ',' ∉ q) :
    (", ".toList.intercalate (p :: ps)).splitOn ',' = p :: ps.map (' ' :: ·) := by
  induction ps generalizing p with
  | nil =>
    rw [List.intercalate_singleton, List.splitOn_eq_singleton (h p List.mem_cons_self)]
    rfl
  | cons q ps ih =>
    have hp := h p List.mem_cons_self
    have htail : (' ' :: ", ".toList.intercalate (q :: ps)).splitOn ',' = (' ' :: q) :: ps.map (' ' :: ·) := by
      rw [List.splitOn_cons_eq_if_modifyHead, if_neg (by decide),
        ih q fun r hr => h r (List.mem_cons_of_mem _ hr)]
      rfl
    rw [List.intercalate_cons_cons, List.append_assoc]
    change (p ++ ',' :: (' ' :: ", ".toList.intercalate (q :: ps))).splitOn ',' = _
    rw [List.splitOn_append_cons_self_of_not_mem hp, htail]
    rfl

theorem listed_toList (refs : List String) :
    (Query.listed refs).toList = ", ".toList.intercalate (refs.map String.toList) :=
  String.toList_intercalate

theorem splitOn_listed_toList {r : String} {refs : List String} (h : ∀ q ∈ r :: refs, IsReference q) :
    (Query.listed (r :: refs)).toList.splitOn ',' = r.toList :: refs.map fun q => ' ' :: q.toList := by
  have hp : ∀ q ∈ r.toList :: refs.map String.toList, ',' ∉ q := by
    intro part hpart
    obtain ⟨q, hq, rfl⟩ := List.mem_map.1 (show part ∈ (r :: refs).map String.toList from hpart)
    exact (h q hq).no_comma
  rw [listed_toList, List.map_cons, splitOn_listed _ _ hp, List.map_map]
  rfl

/-- References with commas between them are read again. -/
theorem splitReferences_listed {refs : List String} (hne : refs ≠ []) (h : ∀ r ∈ refs, IsReference r) :
    splitReferences (Query.listed refs).toList = refs := by
  obtain ⟨r, refs, rfl⟩ := List.exists_cons_of_ne_nil hne
  rw [splitReferences_eq, splitOn_listed_toList h, List.map_cons, List.map_map]
  have htrim (q : String) (hq : q ∈ r :: refs) : String.ofList (trim q.toList) = q := by
    rw [(h q hq).trimmed, String.ofList_toList]
  have hspace (q : String) (hq : q ∈ refs) : String.ofList (trim (' ' :: q.toList)) = q := by
    rw [trim_space, htrim q (List.mem_cons_of_mem _ hq)]
  rw [htrim r List.mem_cons_self]
  congr 1
  conv_rhs => rw [← List.map_id refs]
  exact List.map_congr_left hspace

/-- A text is one empty reference exactly when it is blank. -/
theorem splitReferences_eq_iff : splitReferences s = [""] ↔ allBlank s = true := by
  rw [splitReferences_eq, ← trim_eq_nil_iff]
  constructor
  · intro h
    obtain ⟨p, hp, he⟩ := List.map_eq_singleton_iff.1 h
    have hs : [','].intercalate (s.splitOn ',') = s := List.intercalate_splitOn ','
    rw [hp, List.intercalate_singleton] at hs
    rw [← hs]
    simpa using congrArg String.toList he
  · intro h
    have hc : ',' ∉ s := fun hc => absurd (allBlank_iff.1 (trim_eq_nil_iff.1 h) _ hc) (by decide)
    rw [List.splitOn_eq_singleton hc, List.map_singleton, h]

theorem splitList_eq (s : List Char) :
    splitList s = if splitReferences s = [""] then [] else splitReferences s := by
  rw [splitList]
  exact if_congr splitReferences_eq_iff.symm rfl rfl

/-- A list that was read is read again as it is written. -/
theorem splitList_listed (s : List Char) :
    splitList (Query.listed (splitList s)).toList = splitList s := by
  rw [splitList_eq s]
  split
  · rfl
  · next hne =>
    rw [splitList_eq, splitReferences_listed (splitReferences_ne_nil s) fun _ => isReference_of_mem,
      if_neg hne]

/-! ### Assignments behind the commas of references -/

/-- What a text assigns at its start stands before its first comma. -/
theorem assigned?_eq_none_of_splitOn (hn : IsKeyword name) {p : List Char} {ps : List (List Char)}
    (h : s.splitOn ',' = p :: ps) : assigned? name s = none ↔ assigned? name p = none := by
  by_cases hc : ',' ∈ s
  · obtain ⟨a, t, rfl, ha⟩ := List.eq_append_cons_of_mem hc
    rw [List.splitOn_append_cons_self_of_not_mem ha] at h
    obtain ⟨rfl, -⟩ := List.cons_eq_cons.1 h
    rw [Option.eq_none_iff_forall_ne_some, Option.eq_none_iff_forall_ne_some]
    constructor
    · exact fun h v hv => h _ (assigned?_append hn hv _)
    · intro h v hv
      obtain ⟨w, hw, -⟩ := assigned?_of_comma hn hv
      exact h w hw
  · rw [List.splitOn_eq_singleton hc] at h
    obtain ⟨rfl, -⟩ := List.cons_eq_cons.1 h
    rfl

/-- Nothing is assigned behind the commas of a text when none of its parts but the first does so. -/
theorem forall_behindComma_iff (hn : IsKeyword name) (s : List Char) :
    (∀ u, BehindComma s u → assigned? name u = none) ↔
      ∀ p ∈ (s.splitOn ',').tail, assigned? name p = none := by
  induction h : s.length using Nat.strong_induction_on generalizing s with
  | _ n ih =>
    by_cases hc : ',' ∈ s
    · obtain ⟨a, t, rfl, ha⟩ := List.eq_append_cons_of_mem hc
      obtain ⟨p, ps, hp⟩ := List.exists_cons_of_ne_nil (List.splitOn_ne_nil ',' t)
      have hl : t.length < n := by
        rw [← h]
        simp only [List.length_append, List.length_cons]
        omega
      have hbehind (u : List Char) : BehindComma (a ++ ',' :: t) u ↔ u = t ∨ BehindComma t u := by
        rw [behindComma_append_of_not_mem ha, behindComma_comma]
      have := ih _ hl t rfl
      rw [hp, List.tail_cons] at this
      simp only [hbehind, forall_eq_or_imp, this, assigned?_eq_none_of_splitOn hn hp]
      rw [List.splitOn_append_cons_self_of_not_mem ha, List.tail_cons, hp, List.forall_mem_cons]
    · rw [List.splitOn_eq_singleton hc]
      simpa using fun u hu => absurd hu (not_behindComma hc)

/-- Written anew, references assign nothing behind their commas that they did not assign before. -/
theorem assigned?_listed (hn : IsKeyword name) (h : ∀ u, BehindComma s u → assigned? name u = none) :
    ∀ u, BehindComma (Query.listed (splitReferences s)).toList u → assigned? name u = none := by
  rw [forall_behindComma_iff hn] at h ⊢
  obtain ⟨p, ps, hp⟩ := List.exists_cons_of_ne_nil (List.splitOn_ne_nil ',' s)
  have hrefs : splitReferences s = .ofList (trim p) :: ps.map fun part => .ofList (trim part) := by
    rw [splitReferences_eq, hp]
    rfl
  have hall (r : String) (hr : r ∈ splitReferences s) : IsReference r := isReference_of_mem hr
  rw [hrefs] at hall ⊢
  rw [splitOn_listed_toList hall, List.tail_cons, List.map_map]
  rw [hp, List.tail_cons] at h
  intro q hq
  obtain ⟨part, hpart, rfl⟩ := List.mem_map.1 hq
  have := assigned?_trim_eq_none hn (h part hpart)
  rw [← assigned?_blank_append (a := [' ']) (by decide)] at this
  simpa using this

/-! ### Written arguments -/

/-- References as they were written anew. -/
def relisted (leading : List Char) : List Char := (Query.listed (splitReferences leading)).toList

/-- What stands before code: references and a comma, or nothing. -/
def leadingText (leading : Option (List Char)) : List Char := leading.elim [] (· ++ [',', ' '])

theorem splitReferences_relisted (leading : List Char) :
    splitReferences (relisted leading) = splitReferences leading :=
  splitReferences_listed (splitReferences_ne_nil leading) fun _ => isReference_of_mem

theorem elim_map_relisted (leading : Option (List Char)) :
    (leading.map relisted).elim [] splitReferences = leading.elim [] splitReferences := by
  cases leading with
  | none => rfl
  | some leading => exact splitReferences_relisted leading

/-- An assignment as it is written. -/
theorem assigned?_written (hn : IsKeyword name) (ha : allBlank a = true) (v : List Char) :
    assigned? name (a ++ (name ++ (" = ".toList ++ v))) = some (' ' :: v) :=
  (assigned?_eq_some_iff hn).2 ⟨a, [' '], ha, by decide, rfl⟩

/-- What stands behind a comma of an assigned text stands behind a comma of the whole. -/
theorem BehindComma.of_assigned? (hn : IsKeyword name) (hu : BehindComma v u)
    (h : assigned? name s = some v) : BehindComma s u := by
  obtain ⟨a, b, -, -, rfl⟩ := (assigned?_eq_some_iff hn).1 h
  have := (((hu.append_left ['=']).append_left b).append_left name).append_left a
  simpa using this

/-- Nothing is found behind the commas of a trimmed text that is not found when more stands behind. -/
theorem forall_behindComma_trim {α : Type} {f : List Char → Option α}
    (hf : ∀ u t, f (u ++ t) = none → f u = none) (h : ∀ u, BehindComma s u → f u = none) :
    ∀ u, BehindComma (trim s) u → f u = none := by
  intro u hu
  obtain ⟨a, b, -, -, hs⟩ := exists_trim s
  exact hf u b (h _ (hs ▸ (hu.append_right b).append_left a))

theorem assigned?_eq_none_of_append (hn : IsKeyword name) (u t : List Char)
    (h : assigned? name (u ++ t) = none) : assigned? name u = none := by
  rw [Option.eq_none_iff_forall_ne_some] at h ⊢
  exact fun v hv => h _ (assigned?_append hn hv t)

theorem code?_eq_none_of_append (u t : List Char) (h : code? (u ++ t) = none) : code? u = none := by
  rw [Option.eq_none_iff_forall_ne_some] at h ⊢
  intro v hv
  obtain ⟨ha, hv⟩ := code?_eq_some_iff.1 hv
  exact h _ (code?_eq_some_iff.2 ⟨assigned?_append isKeyword_func ha t, by simp [hv]⟩)

/-! ### Functions -/

/-- No code is assigned behind the commas of the code that was read. -/
theorem splitFunction?_code {leading : Option (List Char)} (h : splitFunction? s = some (v, leading)) :
    ∀ u, BehindComma v u → code? u = none := by
  have hpart {t : List Char} (ht : code? t = some v) (hu : ∀ u, BehindComma t u → code? u = none) :
      ∀ u, BehindComma v u → code? u = none :=
    fun u hv => hu u (hv.of_assigned? isKeyword_func (code?_eq_some_iff.1 ht).1)
  cases leading with
  | none =>
    obtain ⟨hs, hu⟩ := splitFunction?_eq_some_none_iff.1 h
    exact hpart hs hu
  | some leading =>
    obtain ⟨t, -, ht, hu⟩ := splitFunction?_eq_some_iff.1 h
    exact hpart ht hu

/-- Code behind whose commas no code is assigned is read where it is written, behind references or
not. -/
theorem splitFunction?_plain (hv : ∀ u, BehindComma v u → code? u = none)
    (written : Option (List Char)) :
    splitFunction? (leadingText written ++ ("func".toList ++ (" = ".toList ++ v))) =
      some (' ' :: v, written) := by
  have hcode {a : List Char} (ha : allBlank a = true) :
      code? (a ++ ("func".toList ++ (" = ".toList ++ v))) = some (' ' :: v) :=
    code?_eq_some_iff.2 ⟨assigned?_written isKeyword_func ha _, List.cons_ne_nil _ _⟩
  have hbehind {a : List Char} (ha : ',' ∉ a) (u : List Char) :
      BehindComma (a ++ ("func".toList ++ (" = ".toList ++ v))) u → code? u = none := by
    rw [behindComma_append_of_not_mem ha, behindComma_append_of_not_mem (by decide),
      behindComma_append_of_not_mem (by decide)]
    exact hv u
  cases written with
  | none => exact splitFunction?_eq_some_none_iff.2 ⟨hcode rfl, hbehind List.not_mem_nil⟩
  | some leading =>
    refine splitFunction?_eq_some_iff.2 ⟨_, ?_, hcode (a := [' ']) (by decide), hbehind (by decide)⟩
    simp [leadingText]

/-- Code that was read is read again where it is written. -/
theorem splitFunction?_written {leading : Option (List Char)} (h : splitFunction? s = some (v, leading))
    (written : Option (List Char)) :
    splitFunction? (leadingText written ++ ("func".toList ++ (" = ".toList ++ trim v))) =
      some (' ' :: trim v, written) :=
  splitFunction?_plain (forall_behindComma_trim code?_eq_none_of_append (splitFunction?_code h)) written

/-! ### Code blocks -/

theorem codeAndLanguage?_eq_some_iff {language : List Char} :
    codeAndLanguage? s = some (v, language) ↔
      ∃ r, assigned? "code".toList s = some (v ++ ',' :: r) ∧
        assigned? "lang".toList r = some language ∧
        ∀ u, BehindComma r u → assigned? "lang".toList u = none := by
  rw [codeAndLanguage?, Option.bind_eq_some_iff]
  constructor
  · rintro ⟨value, hvalue, h⟩
    obtain ⟨r, rfl, hr⟩ := splitLanguage?_eq_some_iff.1 h
    exact ⟨r, hvalue, hr⟩
  · rintro ⟨r, hvalue, hr⟩
    exact ⟨_, hvalue, splitLanguage?_eq_some_iff.2 ⟨r, rfl, hr⟩⟩

theorem codeAndLanguage?_ne_none (h : assigned? "code".toList s = some v) (hu : BehindComma v u)
    (hl : assigned? "lang".toList u ≠ none) : codeAndLanguage? s ≠ none := by
  rw [codeAndLanguage?, h]
  exact splitLanguage?_ne_none hu hl

/-- A code block has a language behind one of its commas. -/
theorem exists_language (h : codeAndLanguage? s ≠ none) :
    ∃ u, BehindComma s u ∧ assigned? "lang".toList u ≠ none := by
  obtain ⟨⟨v, language⟩, hx⟩ := Option.ne_none_iff_exists'.1 h
  obtain ⟨r, hcode, hr, -⟩ := codeAndLanguage?_eq_some_iff.1 hx
  have hv : BehindComma (v ++ ',' :: r) r := ⟨v, rfl⟩
  exact ⟨r, hv.of_assigned? isKeyword_code hcode, hr ▸ Option.some_ne_none language⟩

theorem assigned?_code_ne_none (h : codeAndLanguage? s ≠ none) : assigned? "code".toList s ≠ none := by
  intro hn
  rw [codeAndLanguage?, hn] at h
  exact h rfl

section

variable {language r : List Char}

/-- A code block as it is written. -/
def blockText (v language : List Char) : List Char :=
  "code".toList ++ (" = ".toList ++ (v ++ ',' :: ([' '] ++ ("lang".toList ++ (" = ".toList ++ language)))))

/-- No language is assigned behind the commas of a language that was read. -/
theorem language_plain (hr : assigned? "lang".toList r = some language)
    (hu : ∀ u, BehindComma r u → assigned? "lang".toList u = none) :
    ∀ u, BehindComma (trim language) u → assigned? "lang".toList u = none :=
  forall_behindComma_trim (assigned?_eq_none_of_append isKeyword_lang) fun u hl =>
    hu u (hl.of_assigned? isKeyword_lang hr)

/-- Code and language that were read are read again where they are written. -/
theorem codeAndLanguage?_written (h : codeAndLanguage? s = some (v, language)) (ha : allBlank a = true) :
    codeAndLanguage? (a ++ blockText (trim v) (trim language)) =
      some (' ' :: trim v, ' ' :: trim language) := by
  obtain ⟨r, -, hr, hu⟩ := codeAndLanguage?_eq_some_iff.1 h
  refine codeAndLanguage?_eq_some_iff.2 ⟨[' '] ++ ("lang".toList ++ (" = ".toList ++ trim language)), ?_,
    assigned?_written isKeyword_lang (by decide) _, fun u => ?_⟩
  · rw [blockText, assigned?_written isKeyword_code ha]
    rfl
  · rw [behindComma_append_of_not_mem (by decide), behindComma_append_of_not_mem (by decide),
      behindComma_append_of_not_mem (by decide)]
    exact language_plain hr hu u

/-- Behind the commas of a code block that was read without references there is no code block, and so
there is none when it is written. -/
theorem codeAndLanguage?_behind_written (h : codeAndLanguage? s = some (v, language))
    (hs : ∀ u, BehindComma s u → codeAndLanguage? u = none) :
    ∀ u, BehindComma (blockText (trim v) (trim language)) u → codeAndLanguage? u = none := by
  obtain ⟨r, hcode, hr, hu⟩ := codeAndLanguage?_eq_some_iff.1 h
  obtain ⟨a, b, -, -, hv⟩ := exists_trim v
  intro u hb
  by_contra hne
  rw [blockText, behindComma_append_of_not_mem (by decide), behindComma_append_of_not_mem (by decide),
    behindComma_append] at hb
  rcases hb with ⟨w, hw, rfl⟩ | hb
  · -- behind a comma of the code, what is assigned to `code` now was assigned to it before
    obtain ⟨value, hvalue⟩ := Option.ne_none_iff_exists'.1 (assigned?_code_ne_none hne)
    obtain ⟨value, hvalue, -⟩ := assigned?_of_comma isKeyword_code hvalue
    have hbehind : BehindComma (v ++ ',' :: r) (w ++ (b ++ ',' :: r)) := by
      have := ((hw.append_right b).append_left a).append_right (',' :: r)
      rwa [← hv, List.append_assoc] at this
    have hread := hs _ (hbehind.of_assigned? isKeyword_code hcode)
    have hvalue := assigned?_append isKeyword_code hvalue (b ++ ',' :: r)
    refine codeAndLanguage?_ne_none hvalue (u := r) ⟨value ++ b, by simp⟩ ?_ hread
    exact hr ▸ Option.some_ne_none language
  · rcases behindComma_comma.1 hb with rfl | hb
    · -- the language itself is not assigned to `code`
      refine assigned?_code_ne_none hne ?_
      rw [assigned?_blank_append (by decide), assigned?, isKeyword_lang.trimStart_append]
      rfl
    · -- behind a comma of the language there is no other language
      rw [behindComma_append_of_not_mem (by decide), behindComma_append_of_not_mem (by decide),
        behindComma_append_of_not_mem (by decide)] at hb
      obtain ⟨x, hx, hlang⟩ := exists_language hne
      exact hlang (language_plain hr hu x (hb.trans hx))

/-- A code block that was read is read again where it is written, behind references or not. -/
theorem splitCodeBlock?_written {leading : Option (List Char)}
    (h : splitCodeBlock? s = some (v, language, leading)) :
    splitCodeBlock? (leadingText (leading.map relisted) ++ blockText (trim v) (trim language)) =
      some (' ' :: trim v, ' ' :: trim language, leading.map relisted) := by
  cases leading with
  | none =>
    obtain ⟨hs, hu⟩ := splitCodeBlock?_eq_some_none_iff.1 h
    exact splitCodeBlock?_eq_some_none_iff.2
      ⟨codeAndLanguage?_written hs rfl, codeAndLanguage?_behind_written hs hu⟩
  | some leading =>
    obtain ⟨t, -, ht, hw⟩ := splitCodeBlock?_eq_some_iff.1 h
    refine splitCodeBlock?_eq_some_iff.2
      ⟨_, ?_, codeAndLanguage?_written (a := [' ']) ht (by decide), fun w hb => ?_⟩
    · simp [leadingText]
    · -- the references assign nothing to `code`, or the block would have started there
      have hplain : ∀ u, BehindComma leading u → assigned? "code".toList u = none := by
        intro u hu
        by_contra hne
        obtain ⟨value, hvalue⟩ := Option.ne_none_iff_exists'.1 hne
        obtain ⟨x, hx, hlang⟩ := exists_language (ht ▸ Option.some_ne_none _)
        have hbehind : BehindComma (value ++ ',' :: t) x :=
          (BehindComma.trans ⟨value, rfl⟩ hx)
        exact codeAndLanguage?_ne_none (assigned?_append isKeyword_code hvalue (',' :: t)) hbehind
          hlang (hw u hu)
      by_contra hne
      obtain ⟨value, hvalue⟩ := Option.ne_none_iff_exists'.1 (assigned?_code_ne_none hne)
      obtain ⟨x, hx, -⟩ := assigned?_of_comma isKeyword_code hvalue
      rw [assigned?_listed isKeyword_code hplain w hb] at hx
      cases hx

end

/-! ### Queries -/

theorem leading_toList (leading : Option (List Char)) :
    (if (leading.elim [] splitReferences).isEmpty then ""
      else Query.listed (leading.elim [] splitReferences) ++ ", ").toList =
      leadingText (leading.map relisted) := by
  cases leading with
  | none => rfl
  | some leading =>
    rw [Option.elim_some, if_neg (by simpa using splitReferences_ne_nil leading), String.toList_append]
    rfl

theorem argumentsText_jsFunc (code : List Char) (leading : Option (List Char)) :
    (Query.argumentsText ⟨.jsFunc, .ofList code :: leading.elim [] splitReferences⟩).toList =
      leadingText (leading.map relisted) ++ ("func".toList ++ (" = ".toList ++ code)) := by
  have hcode : (String.ofList code).toList = code := String.toList_ofList
  rw [← leading_toList]
  conv_rhs => rw [← hcode]
  rw [Query.argumentsText, String.toList_append, String.toList_append, List.append_assoc]
  rfl

theorem argumentsText_codeBlock (code language : List Char) (leading : Option (List Char)) :
    (Query.argumentsText
      ⟨.codeBlock, .ofList code :: .ofList language :: leading.elim [] splitReferences⟩).toList =
      leadingText (leading.map relisted) ++ blockText code language := by
  have hcode : (String.ofList code).toList = code := String.toList_ofList
  have hlanguage : (String.ofList language).toList = language := String.toList_ofList
  rw [← leading_toList]
  conv_rhs => rw [← hcode, ← hlanguage]
  rw [Query.argumentsText]
  simp only [String.toList_append, List.append_assoc]
  rfl

/-- A function without code takes a plain list of references. -/
theorem parseArguments_list {f : FunctionKind} (hf : f.codeArguments = 0) (text : String) :
    parseArguments f text = .ok (splitList text.toList) := by
  cases f <;> first | rfl | cases hf

section

variable {text : String} {args : List String}

/-- A function is read when code is assigned that is not blank. -/
theorem parseArguments_jsFunc_eq_ok_iff : parseArguments .jsFunc text = .ok args ↔
    ∃ v leading, splitFunction? text.toList = some (v, leading) ∧ trim v ≠ [] ∧
      .ofList (trim v) :: leading.elim [] splitReferences = args := by
  unfold parseArguments
  dsimp only
  constructor
  · intro h
    split at h
    · cases h
    · next v leading hs =>
      split at h
      · cases h
      · next hv => exact ⟨v, leading, hs, fun he => hv (trim_eq_nil_iff.1 he), Except.ok.inj h⟩
  · rintro ⟨v, leading, hs, hv, rfl⟩
    rw [hs]
    exact if_neg fun hb => hv (trim_eq_nil_iff.2 hb)

/-- A code block is read when code and a language are assigned. -/
theorem parseArguments_codeBlock_eq_ok_iff : parseArguments .codeBlock text = .ok args ↔
    ∃ v language leading, splitCodeBlock? text.toList = some (v, language, leading) ∧
      .ofList (trim v) :: .ofList (trim language) :: leading.elim [] splitReferences = args := by
  unfold parseArguments
  dsimp only
  constructor
  · intro h
    split at h
    · cases h
    · next v language leading hs => exact ⟨v, language, leading, hs, Except.ok.inj h⟩
  · rintro ⟨v, language, leading, hs, rfl⟩
    rw [hs]

end

/-- The arguments of every function are read again as they are written. -/
theorem parseArguments_argumentsText {f : FunctionKind} {text : String} {args : List String}
    (h : parseArguments f text = .ok args) :
    parseArguments f (Query.argumentsText ⟨f, args⟩) = .ok args := by
  have hlist (hf : f.codeArguments = 0) (ht : Query.argumentsText ⟨f, args⟩ = Query.listed args) :
      parseArguments f (Query.argumentsText ⟨f, args⟩) = .ok args := by
    rw [parseArguments_list hf] at h ⊢
    cases h
    rw [ht, splitList_listed]
  cases f with
  | jsFunc =>
    obtain ⟨v, leading, hs, hv, rfl⟩ := parseArguments_jsFunc_eq_ok_iff.1 h
    have hread := splitFunction?_written hs (leading.map relisted)
    rw [← argumentsText_jsFunc] at hread
    refine parseArguments_jsFunc_eq_ok_iff.2 ⟨_, _, hread, ?_, ?_⟩
    · rwa [trim_space, trim_trim]
    · rw [trim_space, trim_trim, elim_map_relisted]
  | codeBlock =>
    obtain ⟨v, language, leading, hs, rfl⟩ := parseArguments_codeBlock_eq_ok_iff.1 h
    have hread := splitCodeBlock?_written hs
    rw [← argumentsText_codeBlock] at hread
    refine parseArguments_codeBlock_eq_ok_iff.2 ⟨_, _, _, hread, ?_⟩
    rw [trim_space, trim_space, trim_trim, trim_trim, elim_map_relisted]
  | get | sum | concat | custom name => exact hlist rfl rfl

theorem trimmed_of_isReference {r : String} (h : IsReference r) : trimmed r = r := by
  rw [trimmed, h.trimmed, String.ofList_toList]

theorem trimmed_ofList_trim (s : List Char) : trimmed (.ofList (trim s)) = .ofList (trim s) := by
  rw [trimmed, String.toList_ofList, trim_trim]

/-- The arguments that were read have no blanks around them. -/
theorem map_trimmed_of_parseArguments {f : FunctionKind} {text : String} {args : List String}
    (h : parseArguments f text = .ok args) : args.map trimmed = args := by
  have hrefs (s : List Char) : (splitReferences s).map trimmed = splitReferences s := by
    conv_rhs => rw [← List.map_id (splitReferences s)]
    exact List.map_congr_left fun r hr => trimmed_of_isReference (isReference_of_mem hr)
  have hleading (leading : Option (List Char)) :
      (leading.elim [] splitReferences).map trimmed = leading.elim [] splitReferences := by
    cases leading with
    | none => rfl
    | some leading => exact hrefs leading
  have hlist (s : List Char) : (splitList s).map trimmed = splitList s := by
    rw [splitList]
    split
    · rfl
    · exact hrefs s
  cases f with
  | jsFunc =>
    obtain ⟨v, leading, -, -, rfl⟩ := parseArguments_jsFunc_eq_ok_iff.1 h
    rw [List.map_cons, trimmed_ofList_trim, hleading]
  | codeBlock =>
    obtain ⟨v, language, leading, -, rfl⟩ := parseArguments_codeBlock_eq_ok_iff.1 h
    rw [List.map_cons, List.map_cons, trimmed_ofList_trim, trimmed_ofList_trim, hleading]
  | get | sum | concat | custom name =>
    cases h
    exact hlist _

/-- A list that was read is never a single empty reference. -/
theorem splitList_ne (s : List Char) : splitList s ≠ [""] := by
  rw [splitList_eq]
  split
  · nofun
  · assumption

/-- The arguments that were read are kept as they are. -/
theorem ofArguments_of_parseArguments {f : FunctionKind} {text : String} {args : List String}
    (h : parseArguments f text = .ok args) : Query.ofArguments f args = ⟨f, args⟩ := by
  rw [Query.ofArguments, map_trimmed_of_parseArguments h]
  by_cases hf : f.codeArguments = 0
  · rw [parseArguments_list hf] at h
    cases h
    simp [splitList_ne]
  · simp [FunctionKind.hasCode, hf]

/-! ### Calls -/

theorem isBlank_of_isNameChar (h : isNameChar c = true) : isBlank c = false := by
  rcases Bool.or_eq_true_iff.1 h with h | h
  · exact isBlank_of_isAlphanum h
  · rw [eq_of_beq h]
    rfl

theorem all_isNameChar (h : isFunctionName s = true) : ∀ c ∈ s, isNameChar c = true := by
  cases s with
  | nil => nofun
  | cons c s =>
    obtain ⟨hc, hs⟩ := Bool.and_eq_true_iff.1 h
    refine List.forall_mem_cons.2 ⟨?_, List.all_eq_true.1 hs⟩
    simp only [isNameStart, isNameChar, Char.isAlphanum, Bool.or_eq_true] at hc ⊢
    exact hc.imp_left .inl

/-- A name and a text in parentheses, with blanks around each of them, are taken apart. -/
theorem splitCall?_surrounded (hn : isFunctionName name = true) (ha : allBlank a = true)
    (hb : allBlank b = true) {d : List Char} (hd : allBlank d = true) (body : List Char) :
    splitCall? (a ++ (name ++ (b ++ '(' :: (body ++ ')' :: d)))) = some (name, body) := by
  have hchars := all_isNameChar hn
  have hstart (s : List Char) : trimStart (name ++ s) = name ++ s := by
    obtain ⟨c, cs, rfl⟩ := List.exists_cons_of_ne_nil (show name ≠ [] by rintro rfl; cases hn)
    exact trimStart_cons (isBlank_of_isNameChar (hchars c List.mem_cons_self)) _
  have hparen : trimStart ('(' :: (body ++ ')' :: d)) = '(' :: (body ++ ')' :: d) :=
    trimStart_cons (by decide) _
  -- the name ends where a blank or the parenthesis stands
  have hend : ∃ c s, isNameChar c = false ∧ b ++ '(' :: (body ++ ')' :: d) = c :: s := by
    cases b with
    | nil => exact ⟨'(', _, by decide, rfl⟩
    | cons c b =>
      refine ⟨c, _, Bool.eq_false_iff.2 fun hname => ?_, rfl⟩
      have hc := allBlank_iff.1 hb c List.mem_cons_self
      rw [isBlank_of_isNameChar hname] at hc
      cases hc
  have hspan : (name ++ (b ++ '(' :: (body ++ ')' :: d))).span isNameChar =
      (name, b ++ '(' :: (body ++ ')' :: d)) := by
    obtain ⟨c, s, hc, he⟩ := hend
    have hc : ¬ isNameChar c = true := by simp [hc]
    rw [he, List.span_eq_takeWhile_dropWhile, List.takeWhile_append_of_pos hchars,
      List.dropWhile_append_of_pos hchars, List.takeWhile_cons, List.dropWhile_cons, if_neg hc,
      if_neg hc, List.append_nil]
  have hclosing : upToClosing? (body ++ ')' :: d) = some body := by
    have hd : ∀ c ∈ d.reverse, isBlank c = true := by simpa using hd
    have hrev : (body ++ ')' :: d).reverse = d.reverse ++ ')' :: body.reverse := by simp
    rw [upToClosing?, hrev, List.dropWhile_append_of_pos hd, List.dropWhile_cons, if_neg (by decide)]
    exact congrArg some (List.reverse_reverse body)
  unfold splitCall?
  rw [trimStart_append ha, hstart, hspan]
  simp only [hn, if_true, trimStart_append hb, hparen, hclosing, Option.map_some]

/-- A name and a text in parentheses are taken apart again. -/
theorem splitCall?_written (hn : isFunctionName name = true) (body : List Char) :
    splitCall? (name ++ '(' :: (body ++ [')'])) = some (name, body) :=
  splitCall?_surrounded (a := []) (b := []) (d := []) hn rfl rfl rfl body

theorem isFunctionName_of_splitCall? {body : List Char} (h : splitCall? s = some (name, body)) :
    isFunctionName name = true := by
  unfold splitCall? at h
  dsimp only at h
  split at h
  · next hn =>
    split at h
    · obtain ⟨_, -, hr⟩ := Option.map_eq_some_iff.1 h
      cases hr
      exact hn
    · cases h
  · cases h

/-- A function that was found by its name has that name. -/
theorem name_of_functionNamed? {custom : List String} {name : String} {f : FunctionKind}
    (h : functionNamed? custom name = some f) : f.name = name := by
  unfold functionNamed? at h
  split at h
  · next hb =>
    cases h
    exact FunctionKind.builtin?_eq_some hb
  · split at h
    · cases h
      rfl
    · cases h

/-- A text is a query when its name is that of a function that can read what stands in parentheses. -/
theorem parseQuery_eq_ok_iff {custom : List String} {text : String} {q : Query} :
    parseQuery custom text = .ok q ↔ ∃ name body f args,
      splitCall? text.toList = some (name, body) ∧ functionNamed? custom (.ofList name) = some f ∧
        parseArguments f (.ofList body) = .ok args ∧ Query.ofArguments f args = q := by
  constructor
  · intro h
    unfold parseQuery at h
    split at h
    · cases h
    · next name body hcall =>
      split at h
      · cases h
      · next f hf =>
        cases hargs : parseArguments f (.ofList body) with
        | error e =>
          rw [hargs] at h
          cases h
        | ok args =>
          rw [hargs] at h
          exact ⟨name, body, f, args, hcall, hf, hargs, Except.ok.inj h⟩
  · rintro ⟨name, body, f, args, hcall, hf, hargs, rfl⟩
    unfold parseQuery
    rw [hcall]
    dsimp only
    rw [hf]
    dsimp only
    rw [hargs]
    rfl

/-- A query that was read is written as a text that reads back to it. -/
theorem parseQuery_text {custom : List String} {text : String} {q : Query}
    (h : parseQuery custom text = .ok q) : parseQuery custom q.text = .ok q := by
  obtain ⟨name, body, f, args, hcall, hf, hargs, rfl⟩ := parseQuery_eq_ok_iff.1 h
  have hq := ofArguments_of_parseArguments hargs
  have htext : (Query.text ⟨f, args⟩).toList =
      name ++ '(' :: ((Query.argumentsText ⟨f, args⟩).toList ++ [')']) := by
    rw [Query.text, String.toList_append, String.toList_append, String.toList_append,
      List.append_assoc, List.append_assoc, name_of_functionNamed? hf, String.toList_ofList]
    rfl
  have hcall' : splitCall? (Query.text ⟨f, args⟩).toList =
      some (name, (Query.argumentsText ⟨f, args⟩).toList) :=
    htext ▸ splitCall?_written (isFunctionName_of_splitCall? hcall) _
  have hargs' : parseArguments f (.ofList (Query.argumentsText ⟨f, args⟩).toList) = .ok args := by
    rw [String.ofList_toList]
    exact parseArguments_argumentsText hargs
  rw [hq]
  exact parseQuery_eq_ok_iff.2 ⟨name, _, f, args, hcall', hf, hargs', hq⟩

/-- A code block with an empty reference, one that looks like code, and code that looks like a
language. -/
theorem parseQuery_text_codeBlock : ∃ q,
    parseQuery ["codeBlock"] " codeBlock (code = x ,, code = f(a, lang = b), lang = py )" = .ok q ∧
    q.text = "codeBlock(code = x, , code = f(a, lang = b), lang = py)" ∧
    parseQuery ["codeBlock"] q.text = .ok q := by
  have hq : parseQuery ["codeBlock"] " codeBlock (code = x ,, code = f(a, lang = b), lang = py )" =
      .ok ⟨.codeBlock, ["f(a, lang = b)", "py", "code = x", ""]⟩ := by cbv
  exact ⟨_, hq, by cbv, parseQuery_text hq⟩

end LiveNotes
