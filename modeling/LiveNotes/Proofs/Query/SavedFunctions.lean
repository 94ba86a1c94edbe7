import LiveNotes.Proofs.Script.Allocation
import LiveNotes.Proofs.Script.Partition
import LiveNotes.Query.Eval

/-!
A saved function and the same code written in a query. The code in a query has lost the blanks around
it, saved code keeps them; that makes no difference, since the parser looks at the tokens alone and not
at their positions.

* `compile_of_tokens`: code with the same tokens is the same function;
* `compile_trimmed`, `compile_surrounded_iff`: blanks around code;
* `runValue?_trimmed`, `value?_saved`: the values of queries.
-/

namespace LiveNotes

open Text

/-! ### Code without the blanks around it -/

/-- Code with the tokens of other code, wherever they stand, is the same function. -/
theorem compile_of_tokens {code code' : String} {f : Script.Lambda} (h : Script.compile code = .ok f)
    (htokens : ∀ ts, Script.tokenize code = .ok ts →
      ∃ ts', Script.tokenize code' = .ok ts' ∧ ts'.map Prod.fst = ts.map Prod.fst) :
    Script.compile code' = .ok f := by
  unfold Script.compile at h
  split at h
  · next g hg =>
    cases h
    obtain ⟨ts, rest, k, hts, hreads, hk, hrest⟩ :=
      Script.parseExpression_reads (Script.parseFunction_ok hg)
    obtain ⟨ts', hts', hkinds⟩ := htokens ts hts
    rw [← hkinds] at hreads
    have hparse := Script.parseExpression_of_reads hts' hreads hrest hk
    rw [Script.compile, Script.parseFunction_of_expression hparse]
  · cases h

/-- Trimmed code compiles to the function that the code is. -/
theorem compile_trimmed {code : String} {f : Script.Lambda} (h : Script.compile code = .ok f) :
    Script.compile (trimmed code) = .ok f :=
  compile_of_tokens h fun _ => Script.tokenize_trimmed

/-- Code is a function exactly when it is the same one without the blanks around it. -/
theorem compile_trimmed_iff {code : String} {f : Script.Lambda} :
    Script.compile (trimmed code) = .ok f ↔ Script.compile code = .ok f :=
  ⟨fun h => compile_of_tokens h fun _ => Script.tokenize_of_trimmed, compile_trimmed⟩

/-- Blanks around code do not change the function that it is, and make no function of other code. -/
theorem compile_surrounded_iff {a b : List Char} (ha : allBlank a = true) (hb : allBlank b = true)
    {code : String} {f : Script.Lambda} :
    Script.compile (.ofList (a ++ (code.toList ++ b))) = .ok f ↔ Script.compile code = .ok f := by
  have htrim : trimmed (.ofList (a ++ (code.toList ++ b))) = trimmed code := by
    rw [trimmed, trimmed, String.toList_ofList, trim_surrounded ha hb]
  rw [← compile_trimmed_iff, htrim, compile_trimmed_iff]

/-- Texts that are the same functions are functions in the same cases. -/
theorem toOption_compile_congr {code code' : String}
    (h : ∀ f, Script.compile code' = .ok f ↔ Script.compile code = .ok f) :
    (Script.compile code').toOption = (Script.compile code).toOption := by
  cases hcode : Script.compile code with
  | ok f => rw [(h f).2 hcode]
  | error e =>
    cases hcode' : Script.compile code' with
    | ok f => exact absurd ((h f).1 hcode') (by simp [hcode])
    | error e' => rfl

/-! ### Values of queries -/

/-- What matters of code is the function that it is, if it is one. -/
theorem runValue?_eq (context : Context) (code : String) (references : List String) :
    runValue? context code references =
      (resolveAll? context references).bind fun values => (Script.compile code).toOption.bind fun f =>
        match Script.invoke context.maxSteps f values with
        | .ok .null | .error _ => none
        | .ok v => some v := by
  unfold runValue?
  cases Script.compile code with
  | ok f => rfl
  | error e => rfl

/-- The value of code is that of the code without the blanks around it. -/
theorem runValue?_trimmed (context : Context) (code : String) (references : List String) :
    runValue? context (trimmed code) references = runValue? context code references := by
  rw [runValue?_eq, runValue?_eq, toOption_compile_congr fun _ => compile_trimmed_iff]

/-- The saved function of a name, called with references other than a single blank one, has the value
that its code has in a query. Blanks around the code, which the query does not keep, change neither
what a call of it gives nor the steps that the call takes, and make no function of other code. -/
theorem value?_saved {context : Context} {name code : String} {references : List String}
    (hf : context.functions.find? (·.name == name) = some ⟨name, code⟩)
    (hr : ∀ r, references = [r] → trimmed r ≠ "") :
    (Query.ofArguments (.custom name) references).value? context =
      (Query.ofArguments .jsFunc (code :: references)).value? context ∧
    ∀ a b : List Char, allBlank a = true → allBlank b = true → ∀ limit args,
      (Script.compile (.ofList (a ++ (code.toList ++ b)))).toOption.map (Script.outcome limit · args) =
        (Script.compile code).toOption.map (Script.outcome limit · args) := by
  constructor
  · have hblank : references.map trimmed ≠ [""] := by
      intro h
      obtain ⟨r, rfl, hempty⟩ := List.map_eq_singleton_iff.1 h
      exact hr r rfl hempty
    have hcustom : Query.ofArguments (.custom name) references =
        ⟨.custom name, references.map trimmed⟩ := by
      unfold Query.ofArguments
      simp [hblank]
    have hquery : Query.ofArguments .jsFunc (code :: references) =
        ⟨.jsFunc, trimmed code :: references.map trimmed⟩ := rfl
    rw [hcustom, hquery]
    unfold Query.value?
    dsimp only
    rw [hf, runValue?_trimmed]
  · intro a b ha hb limit args
    rw [toOption_compile_congr fun _ => compile_surrounded_iff ha hb]

/-- A note with one property. -/
def oneTree : PropertyTree := [("n.md", .document [("x", .string "rent")])]

/-- A function that gives back its argument, saved with a line end before its code and one behind. -/
def savedCode : String := .ofList (['\n'] ++ ((String.ofList
  (Script.spaced [Script.Word.a, .symbol .arrow, Script.Word.a])).toList ++ ['\n']))

/-- The note, with the function saved under a name. -/
def savedContext : Context := ⟨"n.md", oneTree, [⟨"same", savedCode⟩], 10⟩

/-- The saved function and the same code in a query, with one reference: both give its value. More blanks
around the code leave the six steps of a call. -/
theorem value?_saved_same :
    savedContext.functions.find? (·.name == "same") = some ⟨"same", savedCode⟩ ∧
    (Query.ofArguments (.custom "same") ["x"]).value? savedContext = some (.string "rent") ∧
    (Query.ofArguments .jsFunc [savedCode, "x"]).value? savedContext = some (.string "rent") ∧
    (Script.compile (.ofList ([' '] ++ (savedCode.toList ++ ['\t'])))).toOption.map
      (Script.outcome 10 · [.string "rent"]) = some (.ok (.string "rent"), 6) := by
  have hf : savedContext.functions.find? (·.name == "same") = some ⟨"same", savedCode⟩ := by rfl
  have hcode : Script.compile savedCode = .ok ⟨["a"], .expr (.identifier "a")⟩ :=
    (compile_surrounded_iff (by decide) (by decide)).2 Script.compile_identity
  have hquery : Query.ofArguments .jsFunc [savedCode, "x"] = ⟨.jsFunc, [trimmed savedCode, "x"]⟩ := by
    cbv
  have hvalue : (Query.ofArguments .jsFunc [savedCode, "x"]).value? savedContext =
      some (.string "rent") := by
    have hargs : resolveAll? savedContext ["x"] = some [.string "rent"] := by cbv
    have hcall : Script.invoke savedContext.maxSteps ⟨["a"], .expr (.identifier "a")⟩ [.string "rent"] =
        .ok (.string "rent") := by rfl
    rw [hquery]
    unfold Query.value?
    dsimp only
    rw [runValue?_trimmed, runValue?_eq, hcode, hargs]
    dsimp only [Except.toOption, Option.bind_some]
    rw [hcall]
  have hfull : ∀ r, ["x"] = [r] → trimmed r ≠ "" := by
    simp
    decide
  obtain ⟨hsame, hblanks⟩ := value?_saved hf hfull
  refine ⟨hf, hsame ▸ hvalue, hvalue, ?_⟩
  rw [hblanks [' '] ['\t'] rfl rfl, hcode]
  rfl

end LiveNotes
