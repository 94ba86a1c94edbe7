/-!
Finding, splitting and replacing one text inside another. All of them rest on `cut?`, which takes
a text apart at the first occurrence of another.

* `cut?_eq_some`: the parts around a cut give the text back;
* `splitAll`, `replaceAll` go on behind each occurrence, so occurrences do not overlap.
-/

namespace LiveNotes.Text

/-- What follows `lead` at the start of a text. -/
def stripLead? : (lead s : List Char) → Option (List Char)
  | [], s => some s
  | _ :: _, [] => none
  | p :: lead, c :: s => if p = c then stripLead? lead s else none

theorem stripLead?_eq_some {lead s rest : List Char} :
    stripLead? lead s = some rest ↔ s = lead ++ rest := by
  induction lead generalizing s with
  | nil => simp [stripLead?]
  | cons p lead ih =>
    cases s with
    | nil => simp [stripLead?]
    | cons c s => by_cases h : p = c <;> simp_all [stripLead?, eq_comm]

/-- `cut?` with the characters already passed, last one first. -/
def cutFrom (sep passed : List Char) (s : List Char) : Option (List Char × List Char) :=
  match stripLead? sep s with
  | some rest => some (passed.reverse, rest)
  | none =>
    match s with
    | [] => none
    | c :: cs => cutFrom sep (c :: passed) cs

/-- The texts before and behind the first occurrence of `sep`. -/
def cut? (sep s : List Char) : Option (List Char × List Char) := cutFrom sep [] s

theorem cutFrom_eq_some {sep passed s before behind : List Char}
    (h : cutFrom sep passed s = some (before, behind)) :
    passed.reverse ++ s = before ++ sep ++ behind := by
  induction s generalizing passed with
  | nil =>
    unfold cutFrom at h
    split at h
    · rename_i rest hr
      simp only [Option.some.injEq, Prod.mk.injEq] at h
      rw [stripLead?_eq_some.1 hr, ← h.1, ← h.2, List.append_assoc]
    · simp at h
  | cons c cs ih =>
    unfold cutFrom at h
    split at h
    · rename_i rest hr
      simp only [Option.some.injEq, Prod.mk.injEq] at h
      rw [stripLead?_eq_some.1 hr, ← h.1, ← h.2, List.append_assoc]
    · simpa using ih h

/-- The parts around a cut give the text back. -/
theorem cut?_eq_some {sep s before behind : List Char} (h : cut? sep s = some (before, behind)) :
    s = before ++ sep ++ behind := by
  simpa using cutFrom_eq_some h

theorem length_of_cut? {sep s before behind : List Char} (hs : sep ≠ [])
    (h : cut? sep s = some (before, behind)) : behind.length < s.length := by
  have := congrArg List.length (cut?_eq_some h)
  have := List.length_pos_iff.2 hs
  simp only [List.length_append] at *
  omega

/-- Whether `part` occurs in `s`. -/
def occursIn (part s : List Char) : Bool := (cut? part s).isSome

/-- The number of characters before the first occurrence of `part`. -/
def indexOf? (part s : List Char) : Option Nat := (cut? part s).map (·.1.length)

/-- `splitAll` with the parts already found, last one first. -/
def splitFrom (sep : List Char) (hs : sep ≠ []) (found : List (List Char)) (s : List Char) :
    List (List Char) :=
  match _h : cut? sep s with
  | none => (s :: found).reverse
  | some (before, behind) => splitFrom sep hs (before :: found) behind
termination_by s.length
decreasing_by exact length_of_cut? hs _h

/-- The parts of `s` between the occurrences of `sep`; an empty `sep` occurs nowhere. -/
def splitAll (sep s : List Char) : List (List Char) :=
  if hs : sep ≠ [] then splitFrom sep hs [] s else [s]

/-- `replaceAll` behind the text that is done, which is given last character first. -/
def replaceFrom (old new : List Char) (ho : old ≠ []) (done s : List Char) : List Char :=
  match _h : cut? old s with
  | none => done.reverse ++ s
  | some (before, behind) =>
    replaceFrom old new ho (new.reverse ++ (before.reverse ++ done)) behind
termination_by s.length
decreasing_by exact length_of_cut? ho _h

/-- `s` with every occurrence of `old` replaced; an empty `old` occurs before every character and
at the end. -/
def replaceAll (old new s : List Char) : List Char :=
  if ho : old ≠ [] then replaceFrom old new ho [] s
  else new ++ s.flatMap fun c => c :: new

/-- `s` with the first occurrence of `old` replaced. -/
def replaceFirst (old new s : List Char) : List Char :=
  match cut? old s with
  | none => s
  | some (before, behind) => before ++ new ++ behind

/-- The parts of `s` between the occurrences of one character. -/
def splitAt (sep : Char) (s : List Char) : List (List Char) := splitAll [sep] s

/-- The text before and behind the last occurrence of one character. -/
def cutLast? (sep : Char) (s : List Char) : Option (List Char × List Char) :=
  match s.reverse.span (· != sep) with
  | (_, []) => none
  | (behind, _ :: before) => some (before.reverse, behind.reverse)

end LiveNotes.Text
