import LiveNotes.Path

/-!
Paths as texts of steps: what `Properties.flatten` writes, `parsePath` reads.

* `stepsText`, `pathText`: steps as they are written;
* `PathStep.Plain`: steps that can be read again;
* `parsePath_pathText`: plain steps are read as they are written, so different ones have different texts.
-/

namespace LiveNotes

open Number

namespace PathStep

/-- A step as it is written behind others. -/
def text : PathStep → String
  | .field name => "." ++ name
  | .index i => "[" ++ i.repr ++ "]"

/-- A step that is read as it is written: a name is not empty and has neither a dot nor an opening
bracket, and a position is below `2 ^ 64`. -/
def Plain : PathStep → Prop
  | .field name => name ≠ "" ∧ '.' ∉ name.toList ∧ '[' ∉ name.toList
  | .index i => i < twoTo 64

end PathStep

/-- Steps as they are written behind others. -/
def stepsText : List PathStep → String
  | [] => ""
  | step :: steps => step.text ++ stepsText steps

/-- The path of steps the first of which leads to an entry. -/
def pathText : List PathStep → String
  | [] => ""
  | first :: rest => first.name ++ stepsText rest

/-! ### Positions -/

theorem isDigit_of_mem_repr {i : Nat} {c : Char} (h : c ∈ i.repr.toList) : c.isDigit := by
  rw [Nat.toList_repr] at h
  exact Nat.isDigit_of_mem_toDigits (by decide) (by decide) h

theorem not_mem_repr {c : Char} (h : c.isDigit = false) (i : Nat) : c ∉ i.repr.toList := by
  intro hm
  rw [isDigit_of_mem_repr hm] at h
  cases h

theorem readNat?_repr (i : Nat) : readNat? i.repr.toList = some i := by
  have hall : i.repr.toList.all Char.isDigit := List.all_eq_true.2 fun _ => isDigit_of_mem_repr
  have hvalue : digitsValue i.repr.toList = i := by
    rw [digitsValue, Nat.toList_repr]
    exact Nat.ofDigitChars_ten_toDigits
  rw [readNat?, hall, hvalue]
  simp

theorem readPosition?_repr {i : Nat} (h : i < twoTo 64) : readPosition? i.repr.toList = some i := by
  -- the digits do not start with a plus
  have hplus : ∀ s, i.repr.toList = '+' :: s → False := fun s hs =>
    absurd (isDigit_of_mem_repr (hs ▸ List.mem_cons_self)) (by decide : ¬ '+'.isDigit)
  rw [readPosition?, readNat?_repr]
  · simp [h]
  · exact hplus

/-! ### Reading what is written -/

variable {done : List PathStep} {part s : List Char}

/-- Outside brackets a part goes on up to a dot or an opening bracket. -/
theorem stepsFrom_append {w : List Char} (hdot : '.' ∉ w) (hbracket : '[' ∉ w) :
    stepsFrom done part false (w ++ s) = stepsFrom done (w.reverse ++ part) false s := by
  induction w generalizing part with
  | nil => rfl
  | cons c w ih =>
    simp only [List.mem_cons, not_or] at hdot hbracket
    rw [List.cons_append, stepsFrom, if_neg (Ne.symm hbracket.1), if_neg (by simp [Ne.symm hdot.1]),
      if_neg (by simp), ih hdot.2 hbracket.2]
    simp

/-- Inside brackets a part goes on up to a bracket. -/
theorem stepsFrom_append_bracketed {w : List Char} (hopen : '[' ∉ w) (hclose : ']' ∉ w) :
    stepsFrom done part true (w ++ s) = stepsFrom done (w.reverse ++ part) true s := by
  induction w generalizing part with
  | nil => rfl
  | cons c w ih =>
    simp only [List.mem_cons, not_or] at hopen hclose
    rw [List.cons_append, stepsFrom, if_neg (Ne.symm hopen.1), if_neg (by simp),
      if_neg (by simp [Ne.symm hclose.1]), ih hopen.2 hclose.2]
    simp

theorem pushStep_nil (done : List PathStep) (bracketed : Bool) : pushStep done bracketed [] = done :=
  rfl

theorem pushStep_field (done : List PathStep) {name : String} (h : name ≠ "") :
    pushStep done false name.toList.reverse = .field name :: done := by
  have hne : name.toList.reverse.isEmpty = false := by simpa using h
  rw [pushStep, hne, List.reverse_reverse, stepOf]
  cases readPosition? name.toList <;> simp

theorem pushStep_index (done : List PathStep) {i : Nat} (h : i < twoTo 64) :
    pushStep done true i.repr.toList.reverse = .index i :: done := by
  have hne : i.repr.toList.reverse.isEmpty = false := by simp
  rw [pushStep, hne, List.reverse_reverse, stepOf, readPosition?_repr h]
  rfl

theorem text_field_toList (name : String) :
    (PathStep.field name).text.toList = '.' :: name.toList := by
  rw [PathStep.text, String.toList_append]
  rfl

theorem text_index_toList (i : Nat) :
    (PathStep.index i).text.toList = '[' :: (i.repr.toList ++ [']']) := by
  rw [PathStep.text, String.toList_append, String.toList_append]
  rfl

/-- Steps written behind a part are read behind it. -/
theorem stepsFrom_stepsText {steps : List PathStep} (h : ∀ step ∈ steps, step.Plain) :
    stepsFrom done part false (stepsText steps).toList = (pushStep done false part).reverse ++ steps := by
  induction steps generalizing done part with
  | nil => simp [stepsText, stepsFrom]
  | cons step steps ih =>
    rw [List.forall_mem_cons] at h
    rw [stepsText, String.toList_append]
    cases step with
    | field name =>
      obtain ⟨hne, hdot, hbracket⟩ := h.1
      rw [text_field_toList, List.cons_append, stepsFrom, if_neg (by decide), if_pos (by simp),
        stepsFrom_append hdot hbracket, List.append_nil, ih h.2, pushStep_field _ hne]
      simp
    | index i =>
      have hopen : '[' ∉ i.repr.toList := not_mem_repr (by decide) i
      have hclose : ']' ∉ i.repr.toList := not_mem_repr (by decide) i
      rw [text_index_toList, List.cons_append, stepsFrom, if_pos rfl, List.append_assoc,
        stepsFrom_append_bracketed hopen hclose, List.append_nil, List.singleton_append, stepsFrom,
        if_neg (by decide), if_neg (by decide), if_pos (by simp), ih h.2, pushStep_nil,
        pushStep_index _ h.1]
      simp

theorem parsePath_stepsText {steps : List PathStep} (h : ∀ step ∈ steps, step.Plain) :
    parsePath (stepsText steps) = steps := by
  rw [parsePath, stepsFrom_stepsText h, pushStep_nil]
  rfl

/-- Steps are read as they are written, if the first one leads to an entry. -/
theorem parsePath_pathText {name : String} {steps : List PathStep}
    (h : ∀ step ∈ .field name :: steps, step.Plain) :
    parsePath (pathText (.field name :: steps)) = .field name :: steps := by
  rw [List.forall_mem_cons] at h
  obtain ⟨⟨hne, hdot, hbracket⟩, hsteps⟩ := h
  rw [parsePath, pathText, PathStep.name, String.toList_append, stepsFrom_append hdot hbracket,
    List.append_nil, stepsFrom_stepsText hsteps, pushStep_field _ hne]
  rfl

/-- Different plain steps have different texts. -/
theorem stepsText_inj {a b : List PathStep} (ha : ∀ step ∈ a, step.Plain)
    (hb : ∀ step ∈ b, step.Plain) (h : stepsText a = stepsText b) : a = b := by
  rw [← parsePath_stepsText ha, h, parsePath_stepsText hb]

end LiveNotes
