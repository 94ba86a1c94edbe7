import LiveNotes.Proofs.Path.Steps
import Mathlib.Data.List.Nodup
import Mathlib.Data.List.Flatten

/-!
The parts of a value, and the list of their paths.

* `Value.children`, `Value.PartAt`: the parts of a value with the steps that lead to them;
* `Properties.mem_flatten_iff`: the paths listed are those of all parts;
* `Properties.lookup?_pathText`: a path that is read as it is written leads back to its part;
* `Value.Addressable`: values with names that can be told apart in a path;
* `Value.Addressable.nodup_flatten`, `Value.Addressable.lookup?`: of their paths none is listed twice,
  and each one leads back to its part.
-/

namespace LiveNotes

namespace Value

variable {v w part : Value} {step : PathStep} {steps : List PathStep}

/-! ### Parts -/

/-- The parts that a container holds itself, each with the step that leads to it. -/
def children : Value → List (PathStep × Value)
  | .array items => items.zipIdx.map fun e => (.index e.2, e.1)
  | .object entries => entries.map fun e => (.field e.1, e.2)
  | _ => []

/-- From a value some steps lead to a part of it. -/
inductive PartAt : Value → List PathStep → Value → Prop
  | here (v : Value) : PartAt v [] v
  | child {v w part : Value} {step : PathStep} {steps : List PathStep} :
      (step, w) ∈ v.children → PartAt w steps part → PartAt v (step :: steps) part

/-- Induction over the parts of a value, each with the step to it. -/
theorem induction_children {motive : Value → Prop}
    (h : ∀ v : Value, (∀ c ∈ v.children, motive c.2) → motive v) (v : Value) : motive v := by
  induction v using induction_parts with
  | scalar v hv =>
    apply h
    intro c hc
    cases v with
    | array items => cases hv
    | object entries => cases hv
    | _ => cases hc
  | array items ih =>
    apply h
    intro c hc
    obtain ⟨⟨w, i⟩, hm, rfl⟩ := List.mem_map.1 hc
    exact ih w (List.fst_mem_of_mem_zipIdx hm)
  | object entries ih =>
    apply h
    intro c hc
    obtain ⟨e, hm, rfl⟩ := List.mem_map.1 hc
    exact ih e hm

/-- The step to an entry leads to what the object holds there, and the step to an item too. -/
theorem part?_of_mem_children (hnodup : (v.children.map (·.1)).Nodup) (h : (step, w) ∈ v.children) :
    v.part? step = some w := by
  cases v with
  | array items =>
    obtain ⟨⟨w, i⟩, hm, he⟩ := List.mem_map.1 h
    cases he
    exact List.mk_mem_zipIdx_iff_getElem?.1 hm
  | object entries =>
    obtain ⟨⟨k, w⟩, hm, he⟩ := List.mem_map.1 h
    cases he
    have hkeys : (Entries.keys entries).Nodup := by
      rw [children, List.map_map] at hnodup
      have hfields : ((Entries.keys entries).map PathStep.field).Nodup := by
        rw [Entries.keys, List.map_map]
        exact hnodup
      exact hfields.of_map
    exact (Entries.get?_eq_some_iff hkeys).2 hm
  | _ => cases h

/-- A value is well-formed if no two of its parts have the same step, and neither have theirs. -/
theorem wellFormed_iff_children :
    v.WellFormed ↔ (v.children.map (·.1)).Nodup ∧ ∀ c ∈ v.children, c.2.WellFormed := by
  cases v with
  | array items =>
    have hpositions : ((Value.array items).children.map (·.1)) =
        (List.range' 0 items.length).map .index := by
      rw [children, List.map_map, ← List.zipIdx_map_snd, List.map_map]
      rfl
    have hnodup : ((Value.array items).children.map (·.1)).Nodup := by
      rw [hpositions]
      exact (List.nodup_map_iff fun i j he => PathStep.index.inj he).2 List.nodup_range'
    rw [WellFormed, wellFormedItems_iff]
    refine ⟨fun h => ⟨hnodup, fun c hc => ?_⟩, fun h w hw => ?_⟩
    · obtain ⟨⟨w, i⟩, hm, rfl⟩ := List.mem_map.1 hc
      exact h w (List.fst_mem_of_mem_zipIdx hm)
    · obtain ⟨i, hi, rfl⟩ := List.mem_iff_getElem.1 hw
      have hm : (items[i], i) ∈ items.zipIdx := List.mk_mem_zipIdx_iff_getElem?.2 (by simp [hi])
      exact h.2 _ (List.mem_map.2 ⟨_, hm, rfl⟩)
  | object entries =>
    have hnames : ((Value.object entries).children.map (·.1)) =
        (entries.map (·.1)).map .field := by
      rw [children, List.map_map, List.map_map]
      rfl
    rw [WellFormed, wellFormedEntries_iff, hnames,
      List.nodup_map_iff fun a b he => PathStep.field.inj he, children, List.forall_mem_map]
  | _ => simp [WellFormed, children]

/-- In a well-formed value steps lead to the part that they tell. -/
theorem WellFormed.foldl_part? (h : v.WellFormed) (hp : v.PartAt steps part) :
    steps.foldl (fun v step => v.bind (·.part? step)) (some v) = some part := by
  induction hp with
  | here => rfl
  | child hc _ ih =>
    obtain ⟨hnodup, hchildren⟩ := wellFormed_iff_children.1 h
    rw [List.foldl_cons, Option.bind_some, part?_of_mem_children hnodup hc, ih (hchildren _ hc)]

/-! ### The list of paths -/

theorem flattenItems_eq (path : String) (i : Nat) (items : List Value) :
    flattenItems path i items =
      (items.zipIdx i).flatMap fun e => e.1.flattenAt (path ++ (PathStep.index e.2).text) := by
  induction items generalizing i with
  | nil => rfl
  | cons v vs ih =>
    rw [flattenItems, ih, List.zipIdx_cons, List.flatMap_cons, PathStep.text]
    simp only [String.append_assoc]

theorem flattenEntries_eq (path : String) (entries : List (String × Value)) :
    flattenEntries path entries =
      entries.flatMap fun e => e.2.flattenAt (path ++ (PathStep.field e.1).text) := by
  induction entries with
  | nil => rfl
  | cons e es ih =>
    obtain ⟨k, v⟩ := e
    rw [flattenEntries, ih, List.flatMap_cons, PathStep.text]
    simp only [String.append_assoc]

theorem flattenAt_eq (path : String) (v : Value) :
    v.flattenAt path =
      (path, v) :: v.children.flatMap fun c => c.2.flattenAt (path ++ c.1.text) := by
  cases v with
  | array items => rw [flattenAt, flattenItems_eq, children, List.flatMap_map]
  | object entries => rw [flattenAt, flattenEntries_eq, children, List.flatMap_map]
  | _ => rfl

/-- What stands in front of the path of a value stands in front of those of its parts. -/
theorem flattenAt_append (front path : String) (v : Value) :
    v.flattenAt (front ++ path) = (v.flattenAt path).map fun e => (front ++ e.1, e.2) := by
  induction v using induction_children generalizing path with
  | h v ih =>
    rw [flattenAt_eq, flattenAt_eq, List.map_cons, List.map_flatMap]
    congr 1
    refine List.flatMap_congr fun c hc => ?_
    rw [String.append_assoc, ih c hc]

/-- The paths listed from a value on are those of all its parts. -/
theorem mem_flattenAt_iff {path p : String} :
    (p, part) ∈ v.flattenAt path ↔ ∃ steps, v.PartAt steps part ∧ p = path ++ stepsText steps := by
  induction v using induction_children generalizing path with
  | h v ih =>
    rw [flattenAt_eq, List.mem_cons, List.mem_flatMap]
    constructor
    · rintro (he | ⟨⟨step, w⟩, hc, hm⟩)
      · cases he
        exact ⟨[], .here _, by simp [stepsText]⟩
      · obtain ⟨steps, hp, rfl⟩ := (ih _ hc).1 hm
        exact ⟨step :: steps, .child hc hp, by rw [stepsText, String.append_assoc]⟩
    · rintro ⟨steps, hp, rfl⟩
      cases hp with
      | here => exact .inl (by simp [stepsText])
      | child hc hp =>
        refine .inr ⟨_, hc, (ih _ hc).2 ⟨_, hp, ?_⟩⟩
        rw [stepsText, String.append_assoc]

/-! ### Values whose parts have paths of their own -/

/-- In every object of a value each name is there once, is not empty and has neither a dot nor an opening
bracket; and no array has more items than there are positions. -/
inductive Addressable : Value → Prop
  | intro {v : Value} (nodup : (v.children.map (·.1)).Nodup) (plain : ∀ c ∈ v.children, c.1.Plain)
      (children : ∀ c ∈ v.children, c.2.Addressable) : Addressable v

theorem addressable_of_children_eq_nil (h : v.children = []) : v.Addressable :=
  ⟨by simp [h], by simp [h], by simp [h]⟩

theorem Addressable.plain_of_partAt (h : v.Addressable) (hp : v.PartAt steps part) :
    ∀ step ∈ steps, step.Plain := by
  induction hp with
  | here => nofun
  | child hc _ ih =>
    obtain ⟨_, hplain, hchildren⟩ := h
    exact List.forall_mem_cons.2 ⟨hplain _ hc, ih (hchildren _ hc)⟩

theorem Addressable.wellFormed (h : v.Addressable) : v.WellFormed := by
  induction h with
  | intro nodup _ _ ih => exact wellFormed_iff_children.2 ⟨nodup, ih⟩

theorem Addressable.exists_of_mem {path p : String} {c : PathStep × Value} (h : v.Addressable)
    (hc : c ∈ v.children) (hp : p ∈ (c.2.flattenAt (path ++ c.1.text)).map (·.1)) :
    ∃ steps, (∀ step ∈ c.1 :: steps, step.Plain) ∧ p = path ++ stepsText (c.1 :: steps) := by
  obtain ⟨⟨p, part⟩, hm, rfl⟩ := List.mem_map.1 hp
  obtain ⟨steps, hpart, rfl⟩ := mem_flattenAt_iff.1 hm
  exact ⟨steps, h.plain_of_partAt (.child hc hpart), by rw [stepsText, String.append_assoc]⟩

/-- No path is listed twice: the steps can be read off it. -/
theorem Addressable.nodup_flattenAt (h : v.Addressable) (path : String) :
    ((v.flattenAt path).map (·.1)).Nodup := by
  induction h generalizing path with
  | @intro v nodup plain parts ih =>
    have hv : v.Addressable := ⟨nodup, plain, parts⟩
    rw [flattenAt_eq, List.map_cons, List.nodup_cons, List.map_flatMap, List.nodup_flatMap]
    refine ⟨?_, fun c hc => ih c hc _, ?_⟩
    · intro hm
      obtain ⟨c, hc, hm⟩ := List.mem_flatMap.1 hm
      obtain ⟨steps, hplain, he⟩ := hv.exists_of_mem hc hm
      have htext : stepsText (c.1 :: steps) = stepsText [] := String.append_eq_left_iff.1 he.symm
      exact absurd (stepsText_inj hplain (by simp) htext) (by simp)
    · refine (List.pairwise_map.1 nodup).imp_of_mem ?_
      intro c c' hc hc' hne p hp hp'
      obtain ⟨steps, hplain, rfl⟩ := hv.exists_of_mem hc hp
      obtain ⟨steps', hplain', he⟩ := hv.exists_of_mem hc' hp'
      rw [String.append_right_inj] at he
      exact hne (List.cons.inj (stepsText_inj hplain hplain' he)).1

end Value

/-! ### The paths of properties -/

namespace Properties

open Value

variable {properties : Properties} {part : Value} {steps : List PathStep}

/-- The first step inside properties leads to an entry. -/
theorem exists_of_partAt (hp : (Value.object properties).PartAt steps part) (hne : steps ≠ []) :
    ∃ name v rest, steps = .field name :: rest ∧ (name, v) ∈ properties ∧ v.PartAt rest part := by
  cases hp with
  | here => exact absurd rfl hne
  | child hc hp =>
    obtain ⟨⟨name, v⟩, hm, he⟩ := List.mem_map.1 hc
    cases he
    exact ⟨name, v, _, rfl, hm, hp⟩

theorem mem_children_of_mem {name : String} {v : Value} (h : (name, v) ∈ properties) :
    (.field name, v) ∈ (Value.object properties).children := List.mem_map.2 ⟨_, h, rfl⟩

/-- The paths listed are those of all parts. -/
theorem mem_flatten_iff {p : String} :
    (p, part) ∈ properties.flatten ↔
      ∃ steps, steps ≠ [] ∧ (Value.object properties).PartAt steps part ∧ p = pathText steps := by
  rw [flatten, List.mem_flatMap]
  constructor
  · rintro ⟨⟨name, v⟩, hm, hp⟩
    obtain ⟨rest, hpart, rfl⟩ := mem_flattenAt_iff.1 hp
    exact ⟨.field name :: rest, List.cons_ne_nil _ _, .child (mem_children_of_mem hm) hpart, rfl⟩
  · rintro ⟨steps, hne, hpart, rfl⟩
    obtain ⟨name, v, rest, rfl, hm, hpart⟩ := exists_of_partAt hpart hne
    exact ⟨_, hm, mem_flattenAt_iff.2 ⟨rest, hpart, rfl⟩⟩

/-- In well-formed properties the path of a part leads back to it, if it is read as it is written. -/
theorem lookup?_pathText (h : (Value.object properties).WellFormed)
    (hp : (Value.object properties).PartAt steps part) (hne : steps ≠ [])
    (hplain : ∀ step ∈ steps, step.Plain) : properties.lookup? (pathText steps) = some part := by
  have hfold := h.foldl_part? hp
  obtain ⟨name, v, rest, rfl, -⟩ := exists_of_partAt hp hne
  rw [Properties.lookup?, parsePath_pathText hplain, follow?]
  exact hfold

end Properties

namespace Value.Addressable

open Properties

variable {properties : Properties} {part : Value} {steps steps' : List PathStep}

theorem parsePath_pathText (h : (Value.object properties).Addressable)
    (hp : (Value.object properties).PartAt steps part) : parsePath (pathText steps) = steps := by
  rcases eq_or_ne steps [] with rfl | hne
  · rfl
  · obtain ⟨name, v, rest, rfl, -⟩ := exists_of_partAt hp hne
    exact LiveNotes.parsePath_pathText (h.plain_of_partAt hp)

/-- The path of a part leads back to it. -/
theorem lookup? (h : (Value.object properties).Addressable)
    (hp : (Value.object properties).PartAt steps part) (hne : steps ≠ []) :
    properties.lookup? (pathText steps) = some part :=
  lookup?_pathText h.wellFormed hp hne (h.plain_of_partAt hp)

/-- No path of properties is listed twice. -/
theorem nodup_flatten (h : (Value.object properties).Addressable) :
    (properties.flatten.map (·.1)).Nodup := by
  -- from the object on the same paths are listed, with a dot in front
  have hpaths : ((Value.object properties).flattenAt "").map (·.1) =
      "" :: (properties.flatten.map (·.1)).map ("." ++ ·) := by
    rw [flattenAt_eq, children, List.flatMap_map, flatten, List.map_cons, List.map_flatMap,
      List.map_flatMap, List.map_flatMap]
    congr 1
    refine List.flatMap_congr fun e _ => ?_
    rw [String.empty_append, PathStep.text, flattenAt_append, List.map_map, List.map_map]
    rfl
  have hnodup := h.nodup_flattenAt ""
  rw [hpaths, List.nodup_cons] at hnodup
  exact hnodup.2.of_map

end Value.Addressable

end LiveNotes
