import LiveNotes.Proofs.Script.Expressions
import LiveNotes.Proofs.Script.Worth
import LiveNotes.Proofs.Text.Search

/-!
Methods of texts in scripts: splitting a text and joining its parts, replacing and searching. They all
find the same occurrences of a text, from the left and without overlaps.

* `HasValue.split`, `HasValue.join`, `HasValue.replaceAll`, `HasValue.includes`: what the calls give;
* `split_join`: joined with what they were split at the parts give the text back, joined with another
  text they give what replacing gives, and there are several of them where the text occurs.
-/

namespace LiveNotes.Script

open Text

/-! ### Parts as values -/

theorem itemTexts_map_textValue (ps : List (List Char)) :
    Value.itemTexts [] (ps.map textValue) = ps.map String.ofList := by
  rw [itemTexts_eq, List.map_map]
  rfl

theorem intercalate_map_ofList (sep : String) (ps : List (List Char)) :
    String.intercalate sep (ps.map String.ofList) = .ofList (sep.toList.intercalate ps) := by
  have hid : String.toList ∘ String.ofList = id := funext fun _ => String.toList_ofList
  rw [← String.toList_inj, String.toList_intercalate, List.map_map, hid, List.map_id, String.toList_ofList]

/-- The characters of a text joined with nothing between them. -/
theorem intercalate_singletons (s : List Char) : ([] : List Char).intercalate (s.map ([·])) = s := by
  induction s with
  | nil => rfl
  | cons c s ih =>
    cases s with
    | nil => rfl
    | cons d s =>
      rw [List.map_cons, List.map_cons, List.intercalate_cons_cons]
      exact congrArg (c :: ·) ih

section Calls

variable {frames : List Frame} {x y z : Expr} {s t u : String} {items : List Value}
  (hx : HasValue frames x (.string s)) (hy : HasValue frames y (.string t))
include hy

theorem HasValue.join (hitems : HasValue frames x (.array items)) :
    HasValue frames (.methodCall x "join" [y]) (.string (String.intercalate t (Value.itemTexts [] items))) := by
  refine .arrayMethod (m := .join) (.cons hy .nil) hitems rfl rfl ?_
  exact congrArg ending (bind_run_ok (charge_stepCap _ ⟨frames, 0⟩))

include hx

theorem HasValue.split : HasValue frames (.methodCall x "split" [y])
    (.array ((parts t.toList s.toList).map textValue)) := by
  refine .textMethod (m := .split) (.cons hy .nil) hx rfl ?_
  exact congrArg ending (bind_run_ok (charge_stepCap _ ⟨frames, 0⟩))

/-- The parts of a text with another text between them. -/
theorem HasValue.split_join (hz : HasValue frames z (.string u)) :
    HasValue frames (.methodCall (.methodCall x "split" [y]) "join" [z])
      (textValue (u.toList.intercalate (parts t.toList s.toList))) := by
  have hjoined := HasValue.join hz (HasValue.split hx hy)
  rwa [itemTexts_map_textValue, intercalate_map_ofList] at hjoined

theorem HasValue.replaceAll (hz : HasValue frames z (.string u)) :
    HasValue frames (.methodCall x "replaceAll" [y, z])
      (textValue (Text.replaceAll t.toList u.toList s.toList)) :=
  .textMethod (m := .replaceAll) (.cons hy (.cons hz .nil)) hx rfl rfl

theorem HasValue.includes : HasValue frames (.methodCall x "includes" [y])
    (.boolean (occursIn t.toList s.toList)) :=
  .textMethod (m := .includes) (.cons hy .nil) hx rfl rfl

end Calls

/-- A text that is split at another one and joined with it again is the same text, and so it is if it is
split into its characters. Joined with a third text the parts give what replacing gives, and there is
more than one of them exactly if the text has the other one in it. -/
theorem split_join_replaceAll {frames : List Frame} {x y z : Expr} {s t u : String}
    (hx : HasValue frames x (.string s)) (hy : HasValue frames y (.string t))
    (hz : HasValue frames z (.string u)) (ht : t ≠ "") :
    HasValue frames (.methodCall (.methodCall x "split" [y]) "join" [y]) (.string s) ∧
    HasValue frames (.methodCall (.methodCall x "split" [.string ""]) "join" [.string ""]) (.string s) ∧
    (∃ replaced, HasValue frames (.methodCall (.methodCall x "split" [y]) "join" [z]) (.string replaced) ∧
      HasValue frames (.methodCall x "replaceAll" [y, z]) (.string replaced)) ∧
    ∃ found values, HasValue frames (.methodCall x "includes" [y]) (.boolean found) ∧
      HasValue frames (.methodCall x "split" [y]) (.array values) ∧ (found = true ↔ 1 < values.length) := by
  have hne : t.toList ≠ [] := by simpa using ht
  have hparts : parts t.toList s.toList = splitAll t.toList s.toList :=
    if_neg (Bool.eq_false_iff.1 (List.isEmpty_eq_false_iff.2 hne))
  have hempty : HasValue frames (.string "") (.string "") := hasValue_string ""
  refine ⟨?_, ?_, ⟨_, ?_, hx.replaceAll hy hz⟩, _, _, hx.includes hy, hx.split hy, ?_⟩
  · have hjoined := hx.split_join hy hy
    rwa [hparts, intercalate_splitAll hne, replaceAll_self hne, textValue, String.ofList_toList] at hjoined
  · have hjoined := hx.split_join hempty hempty
    change HasValue frames _ (textValue (List.intercalate [] (s.toList.map ([·])))) at hjoined
    rwa [intercalate_singletons, textValue, String.ofList_toList] at hjoined
  · have hjoined := hx.split_join hy hz
    rwa [hparts, intercalate_splitAll hne] at hjoined
  · rw [List.length_map, hparts]
    exact occursIn_iff hne

/-- A text in which occurrences overlap and stand at both ends. -/
theorem split_join_replaceAll_overlapping :
    HasValue [] (.methodCall (.methodCall (.string "aaaéaa") "split" [.string "aa"]) "join" [.string "aa"])
      (.string "aaaéaa") ∧
    (∃ replaced,
      HasValue [] (.methodCall (.methodCall (.string "aaaéaa") "split" [.string "aa"]) "join" [.string "-"])
        (.string replaced) ∧
      HasValue [] (.methodCall (.string "aaaéaa") "replaceAll" [.string "aa", .string "-"])
        (.string replaced)) ∧
    ∃ found values, HasValue [] (.methodCall (.string "aaaéaa") "includes" [.string "aa"]) (.boolean found) ∧
      HasValue [] (.methodCall (.string "aaaéaa") "split" [.string "aa"]) (.array values) ∧
      (found = true ↔ 1 < values.length) :=
  have h := split_join_replaceAll (hasValue_string "aaaéaa") (hasValue_string "aa") (hasValue_string "-")
    (by decide)
  ⟨h.1, h.2.2⟩

end LiveNotes.Script
