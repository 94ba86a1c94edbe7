import LiveNotes.Proofs.Number.Digits
import LiveNotes.Json.Layout
import LiveNotes.Number.Integer
import LiveNotes.Proofs.Json.Grammar
import Mathlib.Data.List.Forall2

/-!
What the writers put together is a text of the grammar.

* `writes_quoteBy`: a string, with the escapes of a value or of a file;
* `numberWritten_integerText`: a whole number;
* `writes_array`, `writes_object`: containers on one line;
* `writes_arrayBlock`, `writes_objectBlock`: containers with their parts on lines of their own.
-/

namespace LiveNotes.Json

open Number

variable {s w p b b' : List Char}

/-! ### Strings -/

/-- A control is written with its code point. -/
theorem unicodeEscape_control : ∀ n < 0xA0,
    unicodeEscape n = ['\\', 'u', '0', '0', Nat.digitChar (n / 16), Nat.digitChar (n % 16)] ∧
      hexFour? '0' '0' (Nat.digitChar (n / 16)) (Nat.digitChar (n % 16)) = some n := by
  decide +kernel

theorem Spells.escapeChar (h : Spells s w) (c : Char) : Spells (c :: s) (escapeChar c ++ w) := by
  unfold Json.escapeChar
  split
  · exact .short rfl h
  · exact .short rfl h
  · exact .short rfl h
  · exact .short rfl h
  · exact .short rfl h
  · next hq hb _ _ _ =>
    split
    · next hc =>
      have hlt : c.toNat < 0xA0 := by
        simp only [Text.isControl, Bool.or_eq_true, Bool.and_eq_true, decide_eq_true_eq] at hc
        omega
      obtain ⟨htext, hcode⟩ := unicodeEscape_control c.toNat hlt
      have hhigh : isHighHalf c.toNat = false := by
        simp only [isHighHalf, Bool.and_eq_false_iff, decide_eq_false_iff_not]
        omega
      have hlow : isLowHalf c.toNat = false := by
        simp only [isLowHalf, Bool.and_eq_false_iff, decide_eq_false_iff_not]
        omega
      rw [htext]
      have := h.code hcode hhigh hlow
      rwa [Char.ofNat_toNat] at this
    · next hc =>
      have hge : 0x20 ≤ c.toNat := by
        simp only [Text.isControl, Bool.or_eq_true, Bool.and_eq_true, decide_eq_true_eq] at hc
        omega
      exact h.plain hge hq hb

theorem Spells.fileChar (h : Spells s w) (c : Char) : Spells (c :: s) (fileChar c ++ w) := by
  unfold Json.fileChar
  split
  · exact .short rfl h
  · exact .short rfl h
  · split
    · exact h.escapeChar c
    · next hc =>
      obtain ⟨hge, hq, hb⟩ : 0x20 ≤ c.toNat ∧ c ≠ '"' ∧ c ≠ '\\' := by simpa using hc
      exact h.plain hge hq hb

section Quotes

variable {escape : Char → List Char}

theorem spells_flatMap (he : ∀ {s w : List Char}, Spells s w → ∀ c, Spells (c :: s) (escape c ++ w))
    (s : List Char) : Spells s (s.flatMap escape) := by
  induction s with
  | nil => exact .nil
  | cons c s ih => exact he ih c

theorem quoteBy_toList (escape : Char → List Char) (s : String) :
    (quoteBy escape s).toList = '"' :: (s.toList.flatMap escape ++ ['"']) := by
  rw [quoteBy, String.toList_ofList, List.cons_append]

/-- A string is written between quotes, whichever of its characters are escaped. -/
theorem writes_quoteBy (he : ∀ {s w : List Char}, Spells s w → ∀ c, Spells (c :: s) (escape c ++ w))
    (s : String) : Writes (.value (.text s)) (quoteBy escape s).toList := by
  have := Writes.text (spells_flatMap he s.toList)
  rwa [String.ofList_toList, ← quoteBy_toList] at this

theorem nameWritten_quoteBy (he : ∀ {s w : List Char}, Spells s w → ∀ c, Spells (c :: s) (escape c ++ w))
    (name : String) : NameWritten name ((quoteBy escape name).toList ++ [':']) := by
  have := NameWritten.mk blank_nil (spells_flatMap he name.toList) blank_nil
  rw [String.ofList_toList] at this
  rw [quoteBy_toList]
  simpa using this

end Quotes

theorem writes_quote (s : String) : Writes (.value (.text s)) (quote s).toList :=
  writes_quoteBy Spells.escapeChar s

theorem nameWritten_quote (name : String) : NameWritten name ((quote name).toList ++ [':']) :=
  nameWritten_quoteBy Spells.escapeChar name

/-! ### Whole numbers -/

/-- A whole number by its digits. -/
def wholeNumber (n : Int) : NumberText := ⟨decide (n < 0), Nat.toDigits 10 n.natAbs, none, none⟩

theorem digits_toDigits (n : Nat) : Digits (Nat.toDigits 10 n) :=
  ⟨Nat.toDigits_ne_nil, fun _ => Nat.isDigit_of_mem_toDigits (by decide) (by decide)⟩

/-- The digits of a number start with a zero only for zero. -/
theorem toDigits_of_head? (n : Nat) (h : (Nat.toDigits 10 n).head? = some '0') :
    Nat.toDigits 10 n = ['0'] := by
  induction n using Nat.strongRecOn with
  | _ n ih =>
    by_cases hn : n < 10
    · rw [Nat.toDigits_of_lt_base hn] at h ⊢
      rw [List.head?_cons, Option.some_inj] at h
      rw [h]
    · have hge : 10 ≤ n := Nat.le_of_not_lt hn
      rw [Nat.toDigits_of_base_le (by decide) hge, List.head?_append_of_ne_nil _ Nat.toDigits_ne_nil] at h
      have hzero := ih (n / 10) (by omega) h
      have hvalue : n / 10 = 0 := by
        rw [← Nat.ofDigitChars_ten_toDigits (n := n / 10), hzero]
        rfl
      omega

theorem numberWritten_integerText (n : Int64) :
    NumberWritten (wholeNumber n.toInt) (integerText n).toList := by
  have hwritten : NumberWritten (wholeNumber n.toInt) _ :=
    .mk (digits_toDigits n.toInt.natAbs) (toDigits_of_head? _) .absent .absent
  rw [integerText, intRepr_toList]
  simpa using hwritten

/-! ### Parts of containers -/

/-- An item behind blanks. -/
def ItemWritten (n : Node) (p : List Char) : Prop :=
  ∃ b w, Blank b ∧ Writes (.value n) w ∧ p = b ++ w

/-- A member behind blanks. -/
def MemberWritten (m : String × Node) (p : List Char) : Prop :=
  ∃ v b w, NameWritten m.1 v ∧ Blank b ∧ Writes (.value m.2) w ∧ p = v ++ (b ++ w)

theorem Writes.itemWritten {n : Node} (h : Writes (.value n) w) : ItemWritten n w :=
  ⟨[], w, blank_nil, h, rfl⟩

theorem ItemWritten.behind {n : Node} (h : ItemWritten n p) (hb : Blank b) : ItemWritten n (b ++ p) := by
  obtain ⟨b', w, hb', hw, rfl⟩ := h
  exact ⟨b ++ b', w, blank_append hb hb', hw, (List.append_assoc ..).symm⟩

theorem NameWritten.behind {name : String} (h : NameWritten name w) (hb : Blank b) :
    NameWritten name (b ++ w) := by
  obtain ⟨hb', hs, hb''⟩ := h
  rw [← List.append_assoc]
  exact .mk (blank_append hb hb') hs hb''

theorem MemberWritten.behind {m : String × Node} (h : MemberWritten m p) (hb : Blank b) :
    MemberWritten m (b ++ p) := by
  obtain ⟨v, b', w, hv, hb', hw, rfl⟩ := h
  exact ⟨b ++ v, b', w, hv.behind hb, hb', hw, (List.append_assoc ..).symm⟩

/-- Items with commas between them, up to the closing bracket. -/
theorem writes_items (hb : Blank b) {n : Node} {ns : List Node} {ps : List (List Char)}
    (hp : ItemWritten n p) (h : List.Forall₂ ItemWritten ns ps) :
    Writes (.items (n :: ns)) ([','].intercalate (p :: ps) ++ (b ++ [']'])) := by
  induction h generalizing n p with
  | nil =>
    obtain ⟨b', w, hb', hw, rfl⟩ := hp
    rw [List.intercalate_singleton, List.append_assoc]
    exact .lastItem hb' hw hb
  | cons hq _ ih =>
    obtain ⟨b', w, hb', hw, rfl⟩ := hp
    have := Writes.item hb' hw blank_nil (ih hq)
    rw [List.intercalate_cons_cons]
    simpa using this

/-- Members with commas between them, up to the closing bracket. -/
theorem writes_members (hb : Blank b) {m : String × Node} {ms : List (String × Node)}
    {ps : List (List Char)} (hp : MemberWritten m p) (h : List.Forall₂ MemberWritten ms ps) :
    Writes (.members (m :: ms)) ([','].intercalate (p :: ps) ++ (b ++ ['\x7d'])) := by
  induction h generalizing m p with
  | nil =>
    obtain ⟨v, b', w, hv, hb', hw, rfl⟩ := hp
    rw [List.intercalate_singleton, List.append_assoc, List.append_assoc]
    exact .lastMember hv hb' hw hb
  | cons hq _ ih =>
    obtain ⟨v, b', w, hv, hb', hw, rfl⟩ := hp
    have := Writes.member hv hb' hw blank_nil (ih hq)
    rw [List.intercalate_cons_cons]
    simpa using this

/-! ### Containers -/

/-- An array on one line. -/
theorem writes_array {ns : List Node} {parts : List String}
    (h : List.Forall₂ (fun n part => Writes (.value n) part.toList) ns parts) :
    Writes (.value (.array ns)) ("[" ++ String.intercalate "," parts ++ "]").toList := by
  cases h with
  | nil => exact .emptyArray blank_nil
  | cons hp h =>
    have htail := List.forall₂_map_right_iff.2 (h.imp fun _ _ hw => hw.itemWritten)
    have := Writes.array (writes_items blank_nil hp.itemWritten htail)
    simpa [String.toList_intercalate] using this

/-- An object on one line. -/
theorem writes_object {ms : List (String × Node)} {parts : List String}
    (h : List.Forall₂ (fun m part => MemberWritten m part.toList) ms parts) :
    Writes (.value (.object ms)) ("\x7b" ++ String.intercalate "," parts ++ "\x7d").toList := by
  cases h with
  | nil => exact .emptyObject blank_nil
  | cons hp h =>
    have htail := List.forall₂_map_right_iff.2 h
    have := Writes.object (writes_members blank_nil hp htail)
    simpa [String.toList_intercalate] using this

/-- The line end and the blanks in front of a line at some depth. -/
def lineStart (depth : Nat) : List Char := '\n' :: (indent depth).toList

theorem blank_lineStart (depth : Nat) : Blank (lineStart depth) := by
  intro c hc
  rw [lineStart, indent, String.toList_ofList, List.mem_cons, List.mem_replicate] at hc
  rcases hc with rfl | ⟨-, rfl⟩
  · rfl
  · rfl

/-- What stands in front of the first of some parts, and of all others behind the comma, stands in
front of each. -/
theorem append_intercalate (lead p : List Char) (ps : List (List Char)) :
    lead ++ (',' :: lead).intercalate (p :: ps) = [','].intercalate ((p :: ps).map (lead ++ ·)) := by
  induction ps generalizing p with
  | nil => rw [List.map_singleton, List.intercalate_singleton, List.intercalate_singleton]
  | cons q ps ih =>
    rw [List.intercalate_cons_cons, List.map_cons, List.map_cons, List.intercalate_cons_cons,
      ← List.map_cons, ← ih q]
    simp

/-- The parts of a block, each behind the start of its line. -/
theorem block_toList (opening closing : String) (depth : Nat) (part : String) (parts : List String) :
    (block opening closing depth (part :: parts)).toList =
      opening.toList ++ ([','].intercalate
        (((part :: parts).map String.toList).map (lineStart (depth + 1) ++ ·)) ++
          (lineStart depth ++ closing.toList)) := by
  have hlines := append_intercalate ['\n'] ((indent (depth + 1)).toList ++ part.toList)
    (parts.map fun p => (indent (depth + 1)).toList ++ p.toList)
  simp only [List.map_cons, List.map_map, Function.comp_def, List.singleton_append] at hlines ⊢
  have hsep : ",\n".toList = [',', '\n'] := rfl
  have hbreak : "\n".toList = ['\n'] := rfl
  simp only [block, String.toList_append, String.toList_intercalate, List.map_cons, List.map_map,
    Function.comp_def, hsep, hbreak, List.append_assoc, List.cons_append, List.nil_append,
    lineStart, ← hlines]

/-- An array with its items on lines of their own. -/
theorem writes_arrayBlock (depth : Nat) {n : Node} {ns : List Node} {part : String}
    {parts : List String}
    (h : List.Forall₂ (fun n part => Writes (.value n) part.toList) (n :: ns) (part :: parts)) :
    Writes (.value (.array (n :: ns))) (block "[" "]" depth (part :: parts)).toList := by
  obtain ⟨hp, htail⟩ := List.forall₂_cons.1 h
  have hline (n : Node) (p : String) (hw : Writes (.value n) p.toList) :
      ItemWritten n (lineStart (depth + 1) ++ p.toList) :=
    hw.itemWritten.behind (blank_lineStart _)
  rw [block_toList, List.map_map, List.map_cons]
  exact .array (writes_items (blank_lineStart depth) (hline _ _ hp)
    (List.forall₂_map_right_iff.2 (htail.imp hline)))

/-- An object with its members on lines of their own. -/
theorem writes_objectBlock (depth : Nat) {m : String × Node} {ms : List (String × Node)}
    {part : String} {parts : List String}
    (h : List.Forall₂ (fun m part => MemberWritten m part.toList) (m :: ms) (part :: parts)) :
    Writes (.value (.object (m :: ms))) (block "\x7b" "\x7d" depth (part :: parts)).toList := by
  obtain ⟨hp, htail⟩ := List.forall₂_cons.1 h
  have hline (m : String × Node) (p : String) (hw : MemberWritten m p.toList) :
      MemberWritten m (lineStart (depth + 1) ++ p.toList) :=
    hw.behind (blank_lineStart _)
  rw [block_toList, List.map_map, List.map_cons]
  exact .object (writes_members (blank_lineStart depth) (hline _ _ hp)
    (List.forall₂_map_right_iff.2 (htail.imp hline)))

end LiveNotes.Json
