import Mathlib
import LiveNotes.Proofs.Query.Grammar

/-!
# Queries that were put together

A query can be put together from any arguments, as `Query.ofArguments` does; it need not have been read.
What is written for it is a query again, but only some arguments come back as they were: a comma in a
reference parts it, and code ends where other code is assigned.

* `parseQuery_text_eq_ok_iff`: a query is read from its own text when its arguments are read from theirs;
* `splitList_listed_iff`: a list of references comes back unless there is a comma in one of them;
* `parseArguments_jsFunc_text_iff`: code and references come back when the code is not blank, no code is
  assigned behind one of its commas, and there is no comma in a reference;
* `parseQuery_text_ofArguments_iff`: the queries that are read from their own text.
-/

namespace LiveNotes

open Text

variable {custom args refs : List String} {f : FunctionKind} {s : List Char}

/-! ### Queries and their arguments -/

/-- A query of a function that can be called is read from its text when its arguments are read from
theirs. -/
theorem parseQuery_text_eq_ok_iff (hn : isFunctionName f.name.toList = true)
    (hf : functionNamed? custom f.name = some f) :
    parseQuery custom (Query.text ⟨f, args⟩) = .ok ⟨f, args⟩ ↔
      parseArguments f (Query.argumentsText ⟨f, args⟩) = .ok args := by
  have htext : Query.text ⟨f, args⟩ = .ofList ([] ++ (f.name.toList ++ ([] ++ '(' ::
      ((Query.argumentsText ⟨f, args⟩).toList ++ ')' :: [])))) := by
    rw [← String.toList_inj, Query.text]
    simp
  rw [htext, parseQuery_call custom hn rfl rfl rfl, String.ofList_toList, String.ofList_toList, hf]
  dsimp only
  constructor
  · intro h
    cases hargs : parseArguments f (Query.argumentsText ⟨f, args⟩) with
    | error e =>
      rw [hargs] at h
      cases h
    | ok read =>
      rw [hargs] at h
      have hq : Query.ofArguments f read = ⟨f, args⟩ := Except.ok.inj h
      rw [ofArguments_of_parseArguments hargs] at hq
      cases hq
      rfl
  · intro h
    rw [h]
    exact congrArg Except.ok (ofArguments_of_parseArguments h)

/-! ### Lists of references -/

theorem no_comma_of_mem_splitList {r : String} (h : r ∈ splitList s) : ',' ∉ r.toList := by
  rw [splitList] at h
  split at h
  · cases h
  · exact (isReference_of_mem h).no_comma

/-- Trimmed references are read from their list exactly when there is no comma in any of them. -/
theorem splitList_listed_iff (ht : ∀ r ∈ refs, trim r.toList = r.toList) (hne : refs ≠ [""]) :
    splitList (Query.listed refs).toList = refs ↔ ∀ r ∈ refs, ',' ∉ r.toList := by
  constructor
  · intro h r hr
    rw [← h] at hr
    exact no_comma_of_mem_splitList hr
  · intro h
    have hrefs : ∀ r ∈ refs, IsReference r := fun r hr => ⟨h r hr, ht r hr⟩
    by_cases he : refs = []
    · subst he
      rfl
    · rw [splitList_eq, splitReferences_listed he hrefs, if_neg hne]

theorem comma_mem_trimmed_iff (a : String) : ',' ∈ (trimmed a).toList ↔ ',' ∈ a.toList := by
  rw [trimmed, String.toList_ofList, mem_trim_iff (by decide)]

theorem trim_toList_trimmed (a : String) : trim (trimmed a).toList = (trimmed a).toList := by
  rw [trimmed, String.toList_ofList, trim_trim]

theorem trim_toList_of_mem {r : String} (h : r ∈ args.map trimmed) : trim r.toList = r.toList := by
  obtain ⟨a, -, rfl⟩ := List.mem_map.1 h
  exact trim_toList_trimmed a

/-- The arguments that a function without code keeps: trimmed ones, and not a single empty one. They have
commas where the given ones do. -/
theorem exists_ofArguments_eq (hf : f.codeArguments = 0) (args : List String) :
    ∃ refs, Query.ofArguments f args = ⟨f, refs⟩ ∧ refs ≠ [""] ∧
      (∀ r ∈ refs, trim r.toList = r.toList) ∧
      ((∀ r ∈ refs, ',' ∉ r.toList) ↔ ∀ a ∈ args, ',' ∉ a.toList) := by
  have hcode : f.hasCode = false := by simp [FunctionKind.hasCode, hf]
  have hcommas : (∀ r ∈ args.map trimmed, ',' ∉ r.toList) ↔ ∀ a ∈ args, ',' ∉ a.toList := by
    simp [comma_mem_trimmed_iff]
  by_cases hblank : args.map trimmed = [""]
  · refine ⟨[], ?_, by simp, List.forall_mem_nil _, ?_⟩
    · simp [Query.ofArguments, hcode, hblank]
    · rw [← hcommas, hblank]
      simp
  · refine ⟨args.map trimmed, ?_, hblank, fun r hr => trim_toList_of_mem hr, hcommas⟩
    simp [Query.ofArguments, hcode, hblank]

/-! ### Code and references -/

/-- References without commas are what stands before code, or there is nothing. -/
theorem exists_leading (h : ∀ r ∈ refs, IsReference r) :
    ∃ leading : Option (List Char), leading.elim [] splitReferences = refs := by
  by_cases he : refs = []
  · exact ⟨none, he.symm⟩
  · exact ⟨some (Query.listed refs).toList, splitReferences_listed he h⟩

/-- Trimmed code and references are read from what is written for them exactly when the code is not empty
and has no other code behind a comma, and there is no comma in a reference. -/
theorem parseArguments_jsFunc_text_iff {code : String} (hc : trim code.toList = code.toList)
    (ht : ∀ r ∈ refs, trim r.toList = r.toList) :
    parseArguments .jsFunc (Query.argumentsText ⟨.jsFunc, code :: refs⟩) = .ok (code :: refs) ↔
      code.toList ≠ [] ∧ (∀ r ∈ refs, ',' ∉ r.toList) ∧
        ∀ u, BehindComma code.toList u → code? u = none := by
  constructor
  · intro h
    obtain ⟨v, leading, hs, hv, he⟩ := parseArguments_jsFunc_eq_ok_iff.1 h
    obtain ⟨rfl, rfl⟩ := List.cons_eq_cons.1 he
    refine ⟨by simpa using hv, fun r hr => ?_, ?_⟩
    · cases leading with
      | none => cases hr
      | some leading => exact (isReference_of_mem hr).no_comma
    · rw [String.toList_ofList]
      exact forall_behindComma_trim code?_eq_none_of_append (splitFunction?_code hs)
  · rintro ⟨hne, hcommas, hplain⟩
    obtain ⟨leading, rfl⟩ := exists_leading fun r hr => ⟨hcommas r hr, ht r hr⟩
    have hread := splitFunction?_plain hplain (leading.map relisted)
    rw [← argumentsText_jsFunc, String.ofList_toList] at hread
    refine parseArguments_jsFunc_eq_ok_iff.2 ⟨_, _, hread, ?_, ?_⟩
    · rwa [trim_space, hc]
    · rw [trim_space, hc, String.ofList_toList, elim_map_relisted]

/-! ### Queries that are read from their own text -/

/-- The functions that take a plain list of references and can be called: those always there, and custom
ones whose name the parser knows, unless it is one of theirs. -/
inductive TakesReferences (custom : List String) : FunctionKind → Prop where
  | get : TakesReferences custom .get
  | sum : TakesReferences custom .sum
  | concat : TakesReferences custom .concat
  | custom {name : String} (isName : isFunctionName name.toList = true)
      (notBuiltin : FunctionKind.builtin? name = none) (registered : name ∈ custom) :
      TakesReferences custom (.custom name)

namespace TakesReferences

theorem codeArguments_eq_zero (h : TakesReferences custom f) : f.codeArguments = 0 := by
  cases h <;> rfl

theorem isFunctionName (h : TakesReferences custom f) : isFunctionName f.name.toList = true := by
  cases h with
  | custom hn _ _ => exact hn
  | get | sum | concat => decide

theorem functionNamed? (h : TakesReferences custom f) : functionNamed? custom f.name = some f := by
  cases h with
  | custom _ hb hr =>
    simp only [LiveNotes.functionNamed?, FunctionKind.name, hb, List.contains_iff_mem, hr, if_true]
  | get | sum | concat => rfl

end TakesReferences

/-- A query put together from arguments is read from its own text exactly when there is no comma in an
argument, for a function that takes references. For `jsFunc` there has to be code that is not blank and
behind no comma of which, once it is trimmed, other code is assigned, and no comma in a reference. -/
theorem parseQuery_text_ofArguments_iff (custom args : List String) :
    (∀ f, TakesReferences custom f →
      (parseQuery custom (Query.ofArguments f args).text = .ok (Query.ofArguments f args) ↔
        ∀ a ∈ args, ',' ∉ a.toList)) ∧
    (parseQuery custom (Query.ofArguments .jsFunc args).text = .ok (Query.ofArguments .jsFunc args) ↔
      ∃ code refs, args = code :: refs ∧ allBlank code.toList = false ∧
        (∀ r ∈ refs, ',' ∉ r.toList) ∧
        ∀ before x, ¬ CutAt GivesCode (trim code.toList) before x) := by
  refine ⟨fun f hf => ?_, ?_⟩
  · obtain ⟨refs, hq, hne, ht, hcommas⟩ := exists_ofArguments_eq hf.codeArguments_eq_zero args
    have hlisted : Query.argumentsText ⟨f, refs⟩ = Query.listed refs := by cases hf <;> rfl
    rw [hq, parseQuery_text_eq_ok_iff hf.isFunctionName hf.functionNamed?,
      parseArguments_list hf.codeArguments_eq_zero, hlisted, Except.ok.injEq,
      splitList_listed_iff ht hne, hcommas]
  · have hq : Query.ofArguments .jsFunc args = ⟨.jsFunc, args.map trimmed⟩ := rfl
    rw [hq, parseQuery_text_eq_ok_iff (by decide) rfl]
    cases args with
    | nil =>
      -- something is always read as code
      refine ⟨fun h => ?_, fun ⟨code, refs, h, _⟩ => by cases h⟩
      obtain ⟨v, leading, -, -, he⟩ := parseArguments_jsFunc_eq_ok_iff.1 h
      cases he
    | cons code refs =>
      have ht : ∀ r ∈ refs.map trimmed, trim r.toList = r.toList := fun r hr => trim_toList_of_mem hr
      have hcode : (trimmed code).toList = trim code.toList := String.toList_ofList
      rw [List.map_cons, parseArguments_jsFunc_text_iff (trim_toList_trimmed code) ht, hcode,
        ← forall_not_cutAt_iff code?_ne_none_iff, ne_eq, trim_eq_nil_iff, Bool.not_eq_true,
        List.forall_mem_map]
      simp only [comma_mem_trimmed_iff]
      constructor
      · rintro ⟨hblank, hcommas, hcut⟩
        exact ⟨code, refs, rfl, hblank, hcommas, hcut⟩
      · rintro ⟨code, refs, he, hblank, hcommas, hcut⟩
        cases he
        exact ⟨hblank, hcommas, hcut⟩

/-- A custom function with references that are kept or parted, and code that ends in front of other code
or is cut there. -/
theorem parseQuery_text_ofArguments_iff_double :
    TakesReferences ["double"] (.custom "double") ∧
    parseQuery ["double"] (Query.ofArguments (.custom "double") [" a ", ""]).text =
      .ok (Query.ofArguments (.custom "double") [" a ", ""]) ∧
    parseQuery ["double"] (Query.ofArguments (.custom "double") ["a,"]).text ≠
      .ok (Query.ofArguments (.custom "double") ["a,"]) ∧
    parseQuery ["double"] (Query.ofArguments .jsFunc ["1, func = ", "func = 2"]).text =
      .ok (Query.ofArguments .jsFunc ["1, func = ", "func = 2"]) ∧
    parseQuery ["double"] (Query.ofArguments .jsFunc ["1, func = 3", "func = 2"]).text ≠
      .ok (Query.ofArguments .jsFunc ["1, func = 3", "func = 2"]) := by
  have hf : TakesReferences ["double"] (.custom "double") := .custom (by decide) rfl (by decide)
  -- nothing is left that the `func` in the code could be given
  have hnone : ∀ u, BehindComma (trim "1, func = ".toList) u → code? u = none := by
    have htrim : trim "1, func = ".toList = ['1'] ++ ',' :: " func =".toList := by decide
    intro u hu
    rw [htrim, behindComma_append_of_not_mem (by decide), behindComma_comma] at hu
    rcases hu with rfl | hu
    · decide
    · exact absurd hu (not_behindComma (by decide))
  have hcut : CutAt GivesCode (trim "1, func = 3".toList) ['1'] " 3".toList :=
    ⟨" func = 3".toList, by decide, ⟨[' '], [' '], by decide, by decide, by decide⟩, by decide⟩
  refine ⟨hf, ?_, ?_, ?_, ?_⟩
  · exact ((parseQuery_text_ofArguments_iff ["double"] [" a ", ""]).1 _ hf).2 (by decide)
  · exact fun h => absurd (((parseQuery_text_ofArguments_iff ["double"] ["a,"]).1 _ hf).1 h) (by decide)
  · exact (parseQuery_text_ofArguments_iff ["double"] ["1, func = ", "func = 2"]).2.2
      ⟨_, _, rfl, by decide, by decide, (forall_not_cutAt_iff code?_ne_none_iff).2 hnone⟩
  · intro h
    obtain ⟨code, refs, he, -, -, hno⟩ :=
      (parseQuery_text_ofArguments_iff ["double"] ["1, func = 3", "func = 2"]).2.1 h
    cases he
    exact hno _ _ hcut

end LiveNotes
