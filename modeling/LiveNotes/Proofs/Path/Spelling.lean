import LiveNotes.Proofs.Path.Steps
import Mathlib.Data.List.Forall2

/-!
Positions in paths, in brackets or behind a dot. The two are read as different steps, one to an item and one to
an entry whose name has the same digits, and each of them falls back to what the other one means: on an object
a position is a name, and on an array a name in digits is a position.

* `PathStep.SpelledAs`, `StepsSpelledAs`, `PathSpelledAs`: the ways to write a step, steps behind others and a
  whole path;
* `PathStep.Agree`, `Properties.follow?_congr`: steps that lead to the same parts of every value;
* `PathSpelledAs.parsePath_agree`: what a spelling is read as leads where its steps do;
* `Properties.lookup?_spellings`: all spellings of some steps have the same value in the same properties.
-/

namespace LiveNotes

open Number

variable {step a b : PathStep} {steps read : List PathStep} {part text : String}

/-! ### Spellings -/

/-- The ways to write a step behind others: a name behind a dot, and a position in brackets or, as a name would
be, behind a dot. -/
inductive PathStep.SpelledAs : PathStep → String → Prop
  | field (name : String) : SpelledAs (.field name) ("." ++ name)
  | bracketed (i : Nat) : SpelledAs (.index i) ("[" ++ i.repr ++ "]")
  | dotted (i : Nat) : SpelledAs (.index i) ("." ++ i.repr)

/-- The ways to write steps behind others, each of them for itself. -/
inductive StepsSpelledAs : List PathStep → String → Prop
  | nil : StepsSpelledAs [] ""
  | cons {step : PathStep} {steps : List PathStep} {part text : String} (h : step.SpelledAs part)
      (hs : StepsSpelledAs steps text) : StepsSpelledAs (step :: steps) (part ++ text)

/-- The ways to write a path. In front of the first step the dot may be missing. -/
inductive PathSpelledAs (steps : List PathStep) : String → Prop
  | full {text : String} (h : StepsSpelledAs steps text) : PathSpelledAs steps text
  | bare {text : String} (h : StepsSpelledAs steps ("." ++ text)) : PathSpelledAs steps text

/-! ### Steps that agree -/

/-- Two steps that lead to entries of the same name, and to items at the same position. -/
structure PathStep.Agree (a b : PathStep) : Prop where
  name_eq : a.name = b.name
  position?_eq : a.position? = b.position?

theorem PathStep.Agree.refl (a : PathStep) : a.Agree a := ⟨rfl, rfl⟩

/-- A position agrees with the name in its digits. -/
theorem PathStep.agree_repr {i : Nat} (h : i < twoTo 64) : (PathStep.field i.repr).Agree (.index i) where
  name_eq := rfl
  position?_eq := readPosition?_repr h

/-- Steps that agree lead to the same part, whether it is an entry or an item. -/
theorem Value.part?_congr (h : a.Agree b) (v : Value) : v.part? a = v.part? b := by
  cases v with
  | object entries => exact congrArg (Entries.get? entries) h.name_eq
  | array items => exact congrArg (Option.bind · fun i => items[i]?) h.position?_eq
  | _ => rfl

theorem foldl_part?_congr (h : List.Forall₂ PathStep.Agree read steps) (v : Option Value) :
    read.foldl (fun v step => v.bind (·.part? step)) v = steps.foldl (fun v step => v.bind (·.part? step)) v := by
  induction h generalizing v with
  | nil => rfl
  | @cons a b read steps hab _ ih =>
    have hpart : v.bind (·.part? a) = v.bind (·.part? b) := Option.bind_congr fun w _ => w.part?_congr hab
    rw [List.foldl_cons, List.foldl_cons, hpart, ih]

/-- Steps that agree, one by one, lead to the same value. -/
theorem Properties.follow?_congr (h : List.Forall₂ PathStep.Agree read steps) (properties : Properties) :
    properties.follow? read = properties.follow? steps := by
  cases h with
  | nil => rfl
  | cons hab hrest => rw [follow?, follow?, hab.name_eq, foldl_part?_congr hrest]

/-! ### What spellings are read as -/

theorem plain_field_repr (i : Nat) : (PathStep.field i.repr).Plain :=
  ⟨Nat.repr_ne_empty, not_mem_repr (by decide) i, not_mem_repr (by decide) i⟩

/-- A spelling of a step is the text of one that agrees with it. -/
theorem PathStep.SpelledAs.exists_text (h : step.SpelledAs part) (hplain : step.Plain) :
    ∃ read : PathStep, read.Plain ∧ part = read.text ∧ read.Agree step := by
  cases h with
  | field name => exact ⟨.field name, hplain, rfl, .refl _⟩
  | bracketed i => exact ⟨.index i, hplain, rfl, .refl _⟩
  | dotted i => exact ⟨.field i.repr, plain_field_repr i, rfl, agree_repr hplain⟩

theorem StepsSpelledAs.exists_stepsText (h : StepsSpelledAs steps text) (hplain : ∀ step ∈ steps, step.Plain) :
    ∃ read : List PathStep, (∀ step ∈ read, step.Plain) ∧ text = stepsText read ∧
      List.Forall₂ PathStep.Agree read steps := by
  induction h with
  | nil => exact ⟨[], List.forall_mem_nil _, rfl, .nil⟩
  | cons hstep _ ih =>
    rw [List.forall_mem_cons] at hplain
    obtain ⟨first, hfirst, rfl, hagree⟩ := hstep.exists_text hplain.1
    obtain ⟨read, hread, rfl, hrest⟩ := ih hplain.2
    exact ⟨first :: read, List.forall_mem_cons.2 ⟨hfirst, hread⟩, rfl, .cons hagree hrest⟩

/-- Steps whose text starts with a dot start with a name. -/
theorem exists_field_of_stepsText (h : "." ++ text = stepsText steps) :
    ∃ name rest, steps = .field name :: rest ∧ text = pathText (.field name :: rest) := by
  have hlist := congrArg String.toList h
  cases steps with
  | nil =>
    rw [stepsText, String.toList_append] at hlist
    cases hlist
  | cons step rest =>
    rw [stepsText, String.toList_append, String.toList_append] at hlist
    cases step with
    | index i =>
      rw [text_index_toList, List.cons_append] at hlist
      cases hlist
    | field name =>
      refine ⟨name, rest, rfl, ?_⟩
      rw [stepsText, PathStep.text, String.append_assoc, String.append_right_inj] at h
      exact h

/-- A spelling of a path is read as steps that agree with its own. -/
theorem PathSpelledAs.parsePath_agree (h : PathSpelledAs steps text) (hplain : ∀ step ∈ steps, step.Plain) :
    List.Forall₂ PathStep.Agree (parsePath text) steps := by
  cases h with
  | full h =>
    obtain ⟨read, hread, rfl, hagree⟩ := h.exists_stepsText hplain
    rwa [parsePath_stepsText hread]
  | bare h =>
    obtain ⟨read, hread, htext, hagree⟩ := h.exists_stepsText hplain
    obtain ⟨name, rest, rfl, rfl⟩ := exists_field_of_stepsText htext
    rwa [parsePath_pathText hread]

/-! ### Values at spelled paths -/

namespace Properties

/-- It does not matter how the positions in a path are written: every spelling of some steps leads where the
steps do, whatever the properties are and whatever stands on the way. -/
theorem lookup?_spellings {text' : String} (properties : Properties) (hplain : ∀ step ∈ steps, step.Plain)
    (h : PathSpelledAs steps text) (h' : PathSpelledAs steps text') :
    properties.lookup? text = properties.lookup? text' ∧ properties.lookup? text = properties.follow? steps := by
  have hread : properties.lookup? text = properties.follow? steps := follow?_congr (h.parsePath_agree hplain) properties
  have hread' : properties.lookup? text' = properties.follow? steps :=
    follow?_congr (h'.parsePath_agree hplain) properties
  exact ⟨hread.trans hread'.symm, hread⟩

/-- Properties with a name in digits, an array behind it, and another such name inside. -/
def numberedProperties : Properties :=
  [("0", .array [.null, .object [("7", .object [("k", .integer 5)])]])]

/-- Positions at the start, on an array and on an object. -/
theorem lookup?_spellings_numberedProperties :
    (∀ step ∈ [PathStep.index 0, .index 1, .index 7, .field "k"], step.Plain) ∧
    PathSpelledAs [.index 0, .index 1, .index 7, .field "k"] "[0].1[7].k" ∧
    PathSpelledAs [.index 0, .index 1, .index 7, .field "k"] "0[1].7.k" ∧
    numberedProperties.lookup? "[0].1[7].k" = some (.integer 5) ∧
    numberedProperties.lookup? "0[1].7.k" = some (.integer 5) := by
  have hplain : ∀ step ∈ [PathStep.index 0, .index 1, .index 7, .field "k"], step.Plain := by
    refine List.forall_mem_cons.2 ⟨(by decide : 0 < twoTo 64), List.forall_mem_cons.2 ⟨(by decide : 1 < twoTo 64),
      List.forall_mem_cons.2 ⟨(by decide : 7 < twoTo 64), List.forall_mem_singleton.2 ?_⟩⟩⟩
    exact ⟨by decide, by decide, by decide⟩
  have hmixed : PathSpelledAs [.index 0, .index 1, .index 7, .field "k"] "[0].1[7].k" :=
    .full (.cons (.bracketed 0) (.cons (.dotted 1) (.cons (.bracketed 7) (.cons (.field "k") .nil))))
  have hdotted : StepsSpelledAs [.index 0, .index 1, .index 7, .field "k"] ".0[1].7.k" :=
    .cons (.dotted 0) (.cons (.bracketed 1) (.cons (.dotted 7) (.cons (.field "k") .nil)))
  have hother : PathSpelledAs [.index 0, .index 1, .index 7, .field "k"] "0[1].7.k" := .bare hdotted
  obtain ⟨hequal, hfollow⟩ := lookup?_spellings numberedProperties hplain hmixed hother
  have hvalue : numberedProperties.follow? [.index 0, .index 1, .index 7, .field "k"] = some (.integer 5) := rfl
  exact ⟨hplain, hmixed, hother, hfollow.trans hvalue, hequal.symm.trans (hfollow.trans hvalue)⟩

end Properties

end LiveNotes
