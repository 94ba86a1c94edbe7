import LiveNotes.Proofs.Path.Parts

/-!
Which of the paths that `Properties.flatten` lists can be looked up again. A path is taken apart at dots and
brackets, and there is no way to write a name with these in it, so such a name is not read as it is written.

* `legible_of_mem_parsePath`: what a path can be read as;
* `dotless_parsePath_pathText`: where no name has an opening bracket, none that is read has a dot;
* `chain`, `leads_of_foldl_part?`: in a value with nothing but one part, only steps that lead where the
  written ones do arrive at it;
* `Properties.lookup?_flatten`: the path of a part leads back to it, whatever else the properties hold,
  exactly if every name on the way is not empty and has neither a dot nor an opening bracket;
* `Properties.lookup?_ne_of_mem_flatten`: a path that does not.
-/

namespace LiveNotes

open Number

variable {step : PathStep} {steps read done : List PathStep} {part s : List Char} {bracketed : Bool}

/-! ### What a path is read as -/

namespace PathStep

/-- A step that a path can be read as: the name that it leads to is not empty and has no opening bracket, and
the position is below `2 ^ 64`. -/
structure Legible (step : PathStep) : Prop where
  name_ne_empty : step.name ≠ ""
  bracket_not_mem : '[' ∉ step.name.toList
  position_lt : ∀ i, step.position? = some i → i < twoTo 64

end PathStep

theorem readPosition?_lt {i : Nat} (h : readPosition? s = some i) : i < twoTo 64 := by
  have hlt := (Option.filter_eq_some_iff.1 h).2
  simpa using hlt

theorem legible_field (hne : part ≠ []) (hpart : '[' ∉ part) :
    (PathStep.field (.ofList part)).Legible where
  name_ne_empty := by simpa [PathStep.name] using hne
  bracket_not_mem := by simpa [PathStep.name] using hpart
  position_lt i h := by
    rw [PathStep.position?, String.toList_ofList] at h
    exact readPosition?_lt h

theorem legible_index {i : Nat} (h : i < twoTo 64) : (PathStep.index i).Legible where
  name_ne_empty := Nat.repr_ne_empty
  bracket_not_mem := not_mem_repr (by decide) i
  position_lt j hj := by
    cases hj
    exact h

theorem legible_stepOf (hne : part ≠ []) (hpart : '[' ∉ part) : (stepOf bracketed part).Legible := by
  rw [stepOf]
  cases h : readPosition? part with
  | none => exact legible_field hne hpart
  | some i =>
    cases bracketed with
    | false => exact legible_field hne hpart
    | true => exact legible_index (readPosition?_lt h)

theorem legible_of_mem_pushStep (hdone : ∀ step ∈ done, step.Legible) (hpart : '[' ∉ part) :
    ∀ step ∈ pushStep done bracketed part, step.Legible := by
  rw [pushStep]
  by_cases he : part = []
  · rw [if_pos (by simpa using he)]
    exact hdone
  · rw [if_neg (by simpa using he)]
    refine List.forall_mem_cons.2 ⟨?_, hdone⟩
    exact legible_stepOf (by simpa using he) (by simpa using hpart)

theorem legible_of_mem_stepsFrom (hdone : ∀ step ∈ done, step.Legible) (hpart : '[' ∉ part) :
    ∀ step ∈ stepsFrom done part bracketed s, step.Legible := by
  fun_induction stepsFrom done part bracketed s with
  | case1 => simpa using legible_of_mem_pushStep hdone hpart
  | case2 _ _ _ _ ih => exact ih (legible_of_mem_pushStep hdone hpart) List.not_mem_nil
  | case3 _ _ _ _ _ _ _ ih => exact ih (legible_of_mem_pushStep hdone hpart) List.not_mem_nil
  | case4 _ _ _ _ _ _ _ _ ih => exact ih (legible_of_mem_pushStep hdone hpart) List.not_mem_nil
  | case5 _ _ _ c _ hc _ _ ih =>
    refine ih hdone ?_
    rw [List.mem_cons, not_or]
    exact ⟨Ne.symm hc, hpart⟩

theorem legible_of_mem_parsePath (path : String) : ∀ step ∈ parsePath path, step.Legible :=
  legible_of_mem_stepsFrom (List.forall_mem_nil _) List.not_mem_nil

/-! ### Dots -/

/-- None of the names that some steps lead to has a dot. -/
def Dotless (steps : List PathStep) : Prop := ∀ step ∈ steps, '.' ∉ step.name.toList

theorem dotless_pushStep (hdone : Dotless done) (hpart : '.' ∉ part) :
    Dotless (pushStep done bracketed part) := by
  have hfield : '.' ∉ (PathStep.field (.ofList part.reverse)).name.toList := by
    simpa [PathStep.name] using hpart
  have hindex (i : Nat) : '.' ∉ (PathStep.index i).name.toList := not_mem_repr (by decide) i
  rw [pushStep]
  split
  · exact hdone
  · refine List.forall_mem_cons.2 ⟨?_, hdone⟩
    rw [stepOf]
    cases readPosition? part.reverse with
    | none => exact hfield
    | some i =>
      cases bracketed with
      | false => exact hfield
      | true => exact hindex i

/-- Outside brackets a text without an opening one is taken apart at every dot. -/
theorem exists_stepsFrom_append {w : List Char} (hw : '[' ∉ w) (hdone : Dotless done)
    (hpart : '.' ∉ part) (s : List Char) :
    ∃ done' part', Dotless done' ∧ '.' ∉ part' ∧
      stepsFrom done part false (w ++ s) = stepsFrom done' part' false s := by
  induction w generalizing done part with
  | nil => exact ⟨done, part, hdone, hpart, rfl⟩
  | cons c w ih =>
    rw [List.mem_cons, not_or] at hw
    rw [List.cons_append, stepsFrom, if_neg (Ne.symm hw.1)]
    by_cases hc : c = '.'
    · rw [if_pos ⟨hc, rfl⟩]
      exact ih hw.2 (dotless_pushStep hdone hpart) List.not_mem_nil
    · rw [if_neg fun h => hc h.1, if_neg (by simp)]
      refine ih hw.2 hdone ?_
      rw [List.mem_cons, not_or]
      exact ⟨Ne.symm hc, hpart⟩

theorem dotless_stepsFrom_stepsText (hsteps : ∀ name, .field name ∈ steps → '[' ∉ name.toList)
    (hdone : Dotless done) (hpart : '.' ∉ part) :
    Dotless (stepsFrom done part false (stepsText steps).toList) := by
  induction steps generalizing done part with
  | nil =>
    intro step hm
    rw [stepsText, String.toList_empty, stepsFrom, List.mem_reverse] at hm
    exact dotless_pushStep hdone hpart step hm
  | cons step steps ih =>
    have hsteps' : ∀ name, .field name ∈ steps → '[' ∉ name.toList := fun name hm =>
      hsteps name (List.mem_cons_of_mem _ hm)
    have hpush : Dotless (pushStep done false part) := dotless_pushStep hdone hpart
    rw [stepsText, String.toList_append]
    cases step with
    | field name =>
      obtain ⟨done', part', hdone', hpart', he⟩ := exists_stepsFrom_append
        (hsteps name List.mem_cons_self) hpush List.not_mem_nil (stepsText steps).toList
      rw [text_field_toList, List.cons_append, stepsFrom, if_neg (by decide), if_pos (by simp), he]
      exact ih hsteps' hdone' hpart'
    | index i =>
      have hopen : '[' ∉ i.repr.toList := not_mem_repr (by decide) i
      have hclose : ']' ∉ i.repr.toList := not_mem_repr (by decide) i
      have hdot : '.' ∉ i.repr.toList.reverse := by simpa using not_mem_repr (by decide) i
      rw [text_index_toList, List.cons_append, stepsFrom, if_pos rfl, List.append_assoc,
        stepsFrom_append_bracketed hopen hclose, List.append_nil, List.singleton_append, stepsFrom,
        if_neg (by decide), if_neg (by decide), if_pos (by simp)]
      exact ih hsteps' (dotless_pushStep hpush hdot) List.not_mem_nil

theorem dotless_parsePath_pathText {name : String}
    (h : ∀ other, .field other ∈ .field name :: steps → '[' ∉ other.toList) :
    Dotless (parsePath (pathText (.field name :: steps))) := by
  obtain ⟨done, part, hdone, hpart, he⟩ := exists_stepsFrom_append (h name List.mem_cons_self)
    (List.forall_mem_nil _) List.not_mem_nil (stepsText steps).toList
  rw [parsePath, pathText, PathStep.name, String.toList_append, he]
  exact dotless_stepsFrom_stepsText (fun other hm => h other (List.mem_cons_of_mem _ hm)) hdone hpart

/-! ### Values with one part -/

/-- A step that is read leads where one that was written does. -/
def Leads : (written read : PathStep) → Prop
  | .field name, read => read.name = name
  | .index i, read => read.position? = some i

/-- A value with nothing in it, but for what is true at the end of some steps. -/
def chain : List PathStep → Value
  | [] => .boolean true
  | .field name :: steps => .object [(name, chain steps)]
  | .index i :: steps => .array (List.replicate i .null ++ [chain steps])

theorem partAt_chain (steps : List PathStep) : (chain steps).PartAt steps (.boolean true) := by
  induction steps with
  | nil => exact .here _
  | cons step steps ih =>
    cases step with
    | field name => exact .child List.mem_cons_self ih
    | index i =>
      have hm : (chain steps, i) ∈ (List.replicate i Value.null ++ [chain steps]).zipIdx :=
        List.mk_mem_zipIdx_iff_getElem?.2 (by simp)
      exact .child (List.mem_map.2 ⟨_, hm, rfl⟩) ih

theorem wellFormed_chain (steps : List PathStep) : (chain steps).WellFormed := by
  induction steps with
  | nil => exact trivial
  | cons step steps ih =>
    cases step with
    | field name => exact ⟨List.nodup_singleton _, ih, trivial⟩
    | index i =>
      refine (Value.wellFormedItems_iff _).2 fun w hw => ?_
      rcases List.mem_append.1 hw with hw | hw
      · rw [List.eq_of_mem_replicate hw]
        exact trivial
      · rw [List.mem_singleton.1 hw]
        exact ih

theorem foldl_part?_none (steps : List PathStep) :
    steps.foldl (fun (v : Option Value) step => v.bind (·.part? step)) none = none := by
  induction steps with
  | nil => rfl
  | cons step steps ih => exact ih

/-- From a value without parts no step leads on. -/
theorem eq_nil_of_foldl_part? {v w : Value} (hv : v.isContainer = false)
    (h : read.foldl (fun v step => v.bind (·.part? step)) (some v) = some w) : read = [] ∧ v = w := by
  cases read with
  | nil => exact ⟨rfl, Option.some.inj h⟩
  | cons step read =>
    have hpart : v.part? step = none := by
      cases v with
      | array items => cases hv
      | object entries => cases hv
      | _ => rfl
    rw [List.foldl_cons, Option.bind_some, hpart, foldl_part?_none] at h
    cases h

/-- Only steps that lead where the written ones do arrive at the part. -/
theorem leads_of_foldl_part?
    (h : read.foldl (fun v step => v.bind (·.part? step)) (some (chain steps)) = some (.boolean true)) :
    List.Forall₂ Leads steps read := by
  induction steps generalizing read with
  | nil =>
    obtain ⟨rfl, -⟩ := eq_nil_of_foldl_part? rfl h
    exact .nil
  | cons step steps ih =>
    cases read with
    | nil => cases step <;> cases h
    | cons first read =>
      rw [List.foldl_cons, Option.bind_some] at h
      cases step with
      | field name =>
        by_cases hname : first.name = name
        · have hpart : (chain (.field name :: steps)).part? first = some (chain steps) :=
            if_pos hname.symm
          rw [hpart] at h
          exact .cons hname (ih h)
        · have hpart : (chain (.field name :: steps)).part? first = none :=
            if_neg (Ne.symm hname)
          rw [hpart, foldl_part?_none] at h
          cases h
      | index i =>
        have hpart : (chain (.index i :: steps)).part? first =
            first.position?.bind fun j => (List.replicate i Value.null ++ [chain steps])[j]? := rfl
        cases hposition : first.position? with
        | none =>
          rw [hpart, hposition, Option.bind_none, foldl_part?_none] at h
          cases h
        | some j =>
          rw [hpart, hposition, Option.bind_some] at h
          rcases Nat.lt_trichotomy j i with hj | rfl | hj
          · have hitem : (List.replicate i Value.null ++ [chain steps])[j]? = some .null := by
              rw [List.getElem?_append_left (by simpa using hj), List.getElem?_replicate, if_pos hj]
            rw [hitem] at h
            cases (eq_nil_of_foldl_part? rfl h).2
          · rw [List.getElem?_append_right (by simp)] at h
            simp only [List.length_replicate, Nat.sub_self, List.getElem?_cons_zero] at h
            exact .cons hposition (ih h)
          · have hitem : (List.replicate i Value.null ++ [chain steps])[j]? = none :=
              List.getElem?_eq_none (by simpa [Nat.succ_le_iff] using hj)
            rw [hitem, foldl_part?_none] at h
            cases h

/-! ### Paths that can be looked up again -/

theorem exists_leads (h : List.Forall₂ Leads steps read) :
    ∀ step ∈ steps, ∃ r ∈ read, Leads step r := by
  induction h with
  | nil => nofun
  | cons hl _ ih =>
    refine List.forall_mem_cons.2 ⟨⟨_, List.mem_cons_self, hl⟩, fun step hm => ?_⟩
    obtain ⟨r, hr, hl⟩ := ih step hm
    exact ⟨r, List.mem_cons_of_mem _ hr, hl⟩

/-- If the path of some steps is read as steps that lead where they do, they are read as they are
written. -/
theorem plain_of_leads {name : String}
    (h : List.Forall₂ Leads (.field name :: steps) (parsePath (pathText (.field name :: steps)))) :
    ∀ step ∈ .field name :: steps, step.Plain := by
  have hread := exists_leads h
  have hlegible := legible_of_mem_parsePath (pathText (.field name :: steps))
  have hopen : ∀ other, .field other ∈ .field name :: steps → '[' ∉ other.toList := by
    intro other hm
    obtain ⟨r, hr, hl⟩ := hread _ hm
    have hl : r.name = other := hl
    exact hl ▸ (hlegible r hr).bracket_not_mem
  have hdotless := dotless_parsePath_pathText hopen
  intro step hm
  obtain ⟨r, hr, hl⟩ := hread step hm
  cases step with
  | field other =>
    have hl : r.name = other := hl
    exact ⟨hl ▸ (hlegible r hr).name_ne_empty, hl ▸ hdotless r hr, hopen other hm⟩
  | index i => exact (hlegible r hr).position_lt i hl

namespace Properties

/-- What can be looked up again. The paths that are listed are those of the parts (`mem_flatten_iff`).
Whatever else the properties hold, a part is listed at its path and found there: exactly if each name on the
way to it is not empty and has neither a dot nor an opening bracket, and each position is below `2 ^ 64`. -/
theorem lookup?_flatten (name : String) (rest : List PathStep) :
    (∀ (properties : Properties) (part : Value), (Value.object properties).WellFormed →
      (Value.object properties).PartAt (.field name :: rest) part →
        (pathText (.field name :: rest), part) ∈ properties.flatten ∧
        properties.lookup? (pathText (.field name :: rest)) = some part) ↔
      ∀ step ∈ .field name :: rest, step.Plain := by
  constructor
  · intro h
    -- a value with nothing but this part shows each condition to be needed
    have hchain := (h [(name, chain rest)] (.boolean true) (wellFormed_chain (.field name :: rest))
      (partAt_chain (.field name :: rest))).2
    refine plain_of_leads (leads_of_foldl_part? ?_)
    rw [lookup?] at hchain
    cases hread : parsePath (pathText (.field name :: rest)) with
    | nil =>
      rw [hread] at hchain
      cases hchain
    | cons first read =>
      rw [hread] at hchain
      exact hchain
  · intro hplain properties part hwell hp
    exact ⟨mem_flatten_iff.2 ⟨_, List.cons_ne_nil _ _, hp, rfl⟩,
      lookup?_pathText hwell hp (List.cons_ne_nil _ _) hplain⟩

/-- Properties with a list, and names that cannot be written in a path beside those that can. -/
def rowProperties : Properties :=
  [("rows", .array [.null, .object [("", .null), ("k]", .integer 7)]]), ("x.y", .string "w")]

theorem lookup?_flatten_rowProperties :
    (Value.object rowProperties).WellFormed ∧
    (Value.object rowProperties).PartAt [.field "rows", .index 1, .field "k]"] (.integer 7) ∧
    (∀ step ∈ [PathStep.field "rows", .index 1, .field "k]"], step.Plain) ∧
    ("rows[1].k]", .integer 7) ∈ rowProperties.flatten ∧
    rowProperties.lookup? "rows[1].k]" = some (.integer 7) := by
  have hwell : (Value.object rowProperties).WellFormed := by
    simp [rowProperties, Value.WellFormed, Value.WellFormedEntries, Value.WellFormedItems]
  have hpart : (Value.object rowProperties).PartAt [.field "rows", .index 1, .field "k]"] (.integer 7) :=
    .child List.mem_cons_self (.child (List.mem_cons_of_mem _ List.mem_cons_self)
      (.child (List.mem_cons_of_mem _ List.mem_cons_self) (.here _)))
  have hplain : ∀ step ∈ [PathStep.field "rows", .index 1, .field "k]"], step.Plain := by
    refine List.forall_mem_cons.2 ⟨⟨by decide, by decide, by decide⟩, List.forall_mem_cons.2
      ⟨(by decide : 1 < twoTo 64), List.forall_mem_singleton.2 ⟨by decide, by decide, by decide⟩⟩⟩
  have htext : "rows[1].k]" = pathText [.field "rows", .index 1, .field "k]"] := by decide
  obtain ⟨hlisted, hfound⟩ := (lookup?_flatten "rows" [.index 1, .field "k]"]).2 hplain
    rowProperties (.integer 7) hwell hpart
  exact ⟨hwell, hpart, hplain, htext ▸ hlisted, htext ▸ hfound⟩

/-- A name with a dot is listed as it is, and read as two names. -/
theorem lookup?_ne_of_mem_flatten :
    (Value.object [("a.b", .integer 1)]).WellFormed ∧
    ("a.b", .integer 1) ∈ flatten [("a.b", .integer 1)] ∧
    lookup? [("a.b", .integer 1)] "a.b" ≠ some (.integer 1) := by
  have hread : parsePath "a.b" = [.field "a", .field "b"] := by decide
  have hfound : lookup? [("a.b", .integer 1)] "a.b" = none := by
    rw [lookup?, hread]
    rfl
  refine ⟨by simp [Value.WellFormed, Value.WellFormedEntries], List.mem_cons_self, ?_⟩
  rw [hfound]
  simp

end Properties

end LiveNotes
