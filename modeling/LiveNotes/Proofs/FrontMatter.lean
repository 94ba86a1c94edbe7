import LiveNotes.FrontMatter
import LiveNotes.Proofs.Text.Blank

/-!
Which documents have front matter, and that their block is cut out to the character.

* `Fronted`: the parts of a document with front matter, from the byte order mark to what follows the closing
  line;
* `linesToClosing?_eq_some_iff`: the lines that are passed up to the closing one;
* `frontMatter?_eq_some_iff`: a block is found exactly in the documents put together from such parts.
-/

namespace LiveNotes

/-! ### Lines -/

/-- A line with the line feed at its end. -/
def IsLine (line : List Char) : Prop := ∃ s, '\n' ∉ s ∧ line = s ++ ['\n']

/-- A line with the text behind it: only the last line has no line feed. -/
def EndsLine (line rest : List Char) : Prop := IsLine line ∨ '\n' ∉ line ∧ rest = []

/-- Three dashes with nothing but blanks behind them. -/
def IsDashes (line : List Char) : Prop :=
  ∃ blanks, Text.allBlank blanks = true ∧ line = ['-', '-', '-'] ++ blanks

theorem closesBlock_iff {line : List Char} : closesBlock line = true ↔ IsDashes line := by
  have hdashes : Text.trimEnd ['-', '-', '-'] = ['-', '-', '-'] := by decide
  rw [closesBlock, beq_iff_eq]
  constructor
  · intro h
    obtain ⟨blanks, hblanks, hline⟩ := Text.exists_trimEnd line
    exact ⟨blanks, hblanks, by rwa [h] at hline⟩
  · rintro ⟨blanks, hblanks, rfl⟩
    rw [Text.trimEnd_append hblanks, hdashes]

theorem IsLine.ne_nil {line : List Char} (h : IsLine line) : line ≠ [] := by
  obtain ⟨s, -, rfl⟩ := h
  simp

theorem IsDashes.ne_nil {line : List Char} (h : IsDashes line) : line ≠ [] := by
  obtain ⟨blanks, -, rfl⟩ := h
  simp

theorem splitLine_cons {c : Char} (hc : c ≠ '\n') (s : List Char) :
    splitLine (c :: s) = (c :: (splitLine s).1, (splitLine s).2) := by
  rw [splitLine]
  exact hc

theorem splitLine_append {line rest : List Char} (h : EndsLine line rest) :
    splitLine (line ++ rest) = (line, rest) := by
  rcases h with ⟨s, hs, rfl⟩ | ⟨hline, rfl⟩
  · induction s with
    | nil => rfl
    | cons c s ih =>
      rw [List.mem_cons, not_or] at hs
      rw [List.cons_append, List.cons_append, splitLine_cons (Ne.symm hs.1), ih hs.2]
  · induction line with
    | nil => rfl
    | cons c line ih =>
      rw [List.mem_cons, not_or] at hline
      rw [List.cons_append, splitLine_cons (Ne.symm hline.1), ih hline.2]

/-- Every text is a line with the text behind it. -/
theorem endsLine_splitLine (s : List Char) :
    EndsLine (splitLine s).1 (splitLine s).2 ∧ s = (splitLine s).1 ++ (splitLine s).2 := by
  have hcut : ∃ line rest, EndsLine line rest ∧ s = line ++ rest := by
    by_cases hs : '\n' ∈ s
    · obtain ⟨t, rest, rfl, ht⟩ := List.eq_append_cons_of_mem hs
      exact ⟨t ++ ['\n'], rest, .inl ⟨t, ht, rfl⟩, by simp⟩
    · exact ⟨s, [], .inr ⟨hs, rfl⟩, (List.append_nil s).symm⟩
  obtain ⟨line, rest, hends, rfl⟩ := hcut
  rw [splitLine_append hends]
  exact ⟨hends, rfl⟩

/-! ### Lines up to the closing one -/

theorem linesToClosing?_append {line rest : List Char} (hends : EndsLine line rest) (hne : line ≠ [])
    (passed : List Char) : linesToClosing? passed (line ++ rest) =
      if closesBlock line then some passed.reverse else linesToClosing? (line.reverse ++ passed) rest := by
  rw [linesToClosing?, splitLine_append hends, dif_neg (List.append_ne_nil_of_left_ne_nil hne rest)]

/-- Lines that do not close the block are passed over. -/
theorem linesToClosing?_flatten {lines : List (List Char)} (h : ∀ line ∈ lines, IsLine line ∧ ¬ IsDashes line)
    (passed s : List Char) :
    linesToClosing? passed (lines.flatten ++ s) = linesToClosing? (lines.flatten.reverse ++ passed) s := by
  induction lines generalizing passed with
  | nil => rfl
  | cons line lines ih =>
    obtain ⟨⟨hline, hdashes⟩, hlines⟩ := List.forall_mem_cons.1 h
    rw [List.flatten_cons, List.append_assoc, linesToClosing?_append (.inl hline) hline.ne_nil,
      if_neg (mt closesBlock_iff.1 hdashes), ih hlines, List.reverse_append, List.append_assoc]

/-- A text with lines, a closing line behind them, and any text behind that. -/
structure Closed (lines : List (List Char)) (closing rest : List Char) : Prop where
  isBlock : ∀ line ∈ lines, IsLine line ∧ ¬ IsDashes line
  isClosing : IsDashes closing
  endsLine : EndsLine closing rest

theorem Closed.linesToClosing? {lines : List (List Char)} {closing rest : List Char}
    (h : Closed lines closing rest) (passed : List Char) :
    linesToClosing? passed (lines.flatten ++ (closing ++ rest)) = some (passed.reverse ++ lines.flatten) := by
  rw [linesToClosing?_flatten h.isBlock, linesToClosing?_append h.endsLine h.isClosing.ne_nil,
    if_pos (closesBlock_iff.2 h.isClosing), List.reverse_append, List.reverse_reverse]

theorem exists_closed_of_linesToClosing? {passed s block : List Char}
    (h : linesToClosing? passed s = some block) : ∃ lines closing rest, Closed lines closing rest ∧
      s = lines.flatten ++ (closing ++ rest) := by
  fun_induction linesToClosing? passed s with
  | case1 => cases h
  | case2 passed s hs line hcloses =>
    obtain ⟨hends, hs⟩ := endsLine_splitLine s
    exact ⟨[], _, _, ⟨nofun, closesBlock_iff.1 hcloses, hends⟩, hs⟩
  | case3 passed s hs line hopen ih =>
    obtain ⟨hends, hcut⟩ := endsLine_splitLine s
    obtain ⟨lines, closing, rest, hclosed, hrest⟩ := ih h
    have hline : IsLine (splitLine s).1 := by
      -- something follows the line, so it is not the last one
      refine hends.resolve_right ?_
      rintro ⟨-, hlast⟩
      rw [hlast, eq_comm] at hrest
      exact hclosed.isClosing.ne_nil (List.append_eq_nil_iff.1 (List.append_eq_nil_iff.1 hrest).2).1
    refine ⟨(splitLine s).1 :: lines, closing, rest, ⟨?_, hclosed.isClosing, hclosed.endsLine⟩, ?_⟩
    · exact List.forall_mem_cons.2 ⟨⟨hline, mt closesBlock_iff.2 hopen⟩, hclosed.isBlock⟩
    · rw [List.flatten_cons, List.append_assoc, ← hrest, ← hcut]

/-! ### Documents with front matter -/

/-- The parts of a document with front matter. -/
structure Fronted where
  mark : List Char
  lineEnd : List Char
  lines : List (List Char)
  closing : List Char
  rest : List Char
  isMark : mark = [] ∨ mark = ['\uFEFF']
  isLineEnd : lineEnd = ['\n'] ∨ lineEnd = ['\r', '\n']
  closed : Closed lines closing rest

namespace Fronted

/-- The block between the lines of dashes. -/
def block (d : Fronted) : List Char := d.lines.flatten

/-- The whole document. -/
def text (d : Fronted) : List Char :=
  d.mark ++ (['-', '-', '-'] ++ (d.lineEnd ++ (d.block ++ (d.closing ++ d.rest))))

end Fronted

theorem exists_mark {text tail : List Char} (h : (match text with | '\uFEFF' :: s => s | s => s) = tail) :
    ∃ mark, (mark = [] ∨ mark = ['\uFEFF']) ∧ text = mark ++ tail := by
  subst h
  split
  · exact ⟨['\uFEFF'], .inr rfl, rfl⟩
  · exact ⟨[], .inl rfl, rfl⟩

theorem behindOpening?_eq_some_iff {text s : List Char} :
    behindOpening? text = some s ↔ ∃ mark lineEnd, (mark = [] ∨ mark = ['\uFEFF']) ∧
      (lineEnd = ['\n'] ∨ lineEnd = ['\r', '\n']) ∧ text = mark ++ (['-', '-', '-'] ++ (lineEnd ++ s)) := by
  constructor
  · intro h
    unfold behindOpening? at h
    dsimp only at h
    split at h
    · next htail =>
      cases h
      obtain ⟨mark, hmark, htext⟩ := exists_mark htail
      exact ⟨mark, ['\r', '\n'], hmark, .inr rfl, htext⟩
    · next htail =>
      cases h
      obtain ⟨mark, hmark, htext⟩ := exists_mark htail
      exact ⟨mark, ['\n'], hmark, .inl rfl, htext⟩
    · cases h
  · rintro ⟨mark, lineEnd, rfl | rfl, rfl | rfl, rfl⟩
    all_goals rfl

theorem frontMatter?_text (d : Fronted) : frontMatter? (.ofList d.text) = some (.ofList d.block) := by
  have hopen : behindOpening? d.text = some (d.block ++ (d.closing ++ d.rest)) :=
    behindOpening?_eq_some_iff.2 ⟨d.mark, d.lineEnd, d.isMark, d.isLineEnd, rfl⟩
  have hblock : linesToClosing? [] (d.block ++ (d.closing ++ d.rest)) = some d.block :=
    d.closed.linesToClosing? []
  rw [frontMatter?, String.toList_ofList, hopen, Option.bind_some, hblock]
  rfl

theorem exists_fronted {text block : String} (h : frontMatter? text = some block) :
    ∃ d : Fronted, text = .ofList d.text := by
  obtain ⟨chars, h, -⟩ := Option.map_eq_some_iff.1 h
  obtain ⟨s, hopen, hlines⟩ := Option.bind_eq_some_iff.1 h
  obtain ⟨mark, lineEnd, hmark, hend, htext⟩ := behindOpening?_eq_some_iff.1 hopen
  obtain ⟨lines, closing, rest, hclosed, rfl⟩ := exists_closed_of_linesToClosing? hlines
  exact ⟨⟨mark, lineEnd, lines, closing, rest, hmark, hend, hclosed⟩,
    String.toList_injective (by rw [htext, String.toList_ofList]; rfl)⟩

/-- The block of a document is what stands between an opening and a closing line of dashes, to the character;
every other text has none. -/
theorem frontMatter?_eq_some_iff (text : String) :
    (∀ block, frontMatter? text = some block ↔
      ∃ d : Fronted, text = .ofList d.text ∧ block = .ofList d.block) ∧
    (frontMatter? text = none ↔ ∀ d : Fronted, text ≠ .ofList d.text) := by
  refine ⟨fun block => ⟨fun h => ?_, ?_⟩, fun h d htext => ?_, fun h => ?_⟩
  · obtain ⟨d, rfl⟩ := exists_fronted h
    rw [frontMatter?_text] at h
    exact ⟨d, rfl, (Option.some.inj h).symm⟩
  · rintro ⟨d, rfl, rfl⟩
    exact frontMatter?_text d
  · rw [htext, frontMatter?_text] at h
    cases h
  · refine Option.eq_none_iff_forall_ne_some.2 fun block hblock => ?_
    obtain ⟨d, htext⟩ := exists_fronted hblock
    exact h d htext

end LiveNotes
