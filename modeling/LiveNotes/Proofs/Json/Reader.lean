import LiveNotes.Proofs.Json.Grammar
import Mathlib.Data.List.DropRight
import Mathlib.Data.List.TakeDrop

/-!
The reader reads every text of the grammar, and gives the tree that it writes.

* `Spells.read`, `NumberWritten.read`: strings and numbers, whatever stands behind them;
* `Writes.read`: every part of a text, by induction on the grammar;
* `IsText.read?`: a whole text.
-/

namespace LiveNotes.Json

open Number

variable {b s w ds rest : List Char} {c : Char}

-- The equations of the readers are derived here, once for all the proofs below.
attribute [local simp] readText readNode readItems readMembers

/-! ### Blanks -/

theorem skip_append (hb : Blank b) (s : List Char) : skip (b ++ s) = skip s :=
  List.dropWhile_append_of_pos hb

theorem skip_cons (hc : isSpace c = false) (s : List Char) : skip (c :: s) = c :: s := by
  rw [skip, List.dropWhile_cons, if_neg (by rw [hc]; exact Bool.false_ne_true)]

theorem skip_blank_cons (hb : Blank b) (hc : isSpace c = false) (s : List Char) :
    skip (b ++ c :: s) = c :: s := by
  rw [skip_append hb, skip_cons hc]

@[simp] theorem skip_skip (s : List Char) : skip (skip s) = skip s :=
  List.dropWhile_idempotent isSpace s

theorem skip_of_blank (hb : Blank b) : skip b = [] := by
  have := skip_append hb []
  rwa [List.append_nil] at this

/-! ### Strings -/

theorem readText_quote (done : List Char) (s : List Char) :
    readText done none true ('"' :: s) = some (some (.ofList done.reverse), s) := by
  rw [readText]
  rfl

theorem readText_plain (hc : 0x20 ≤ c.toNat) (hq : c ≠ '"') (hb : c ≠ '\\') (done s : List Char) :
    readText done none true (c :: s) = readText (c :: done) none true s := by
  rw [readText.eq_def]
  split
  · next h => cases h
  · next h => exact absurd (List.cons.inj h).1 hq
  · next h => exact absurd (List.cons.inj h).1 hb
  · next h => exact absurd (List.cons.inj h).1 hb
  · next h =>
    obtain ⟨rfl, rfl⟩ := List.cons.inj h
    have hplain : ¬ (c.toNat < 0x20 ∨ c = '\\') := by
      rintro (h | h)
      · omega
      · exact hb h
    rw [if_neg hplain]
    rfl

theorem readText_short {e : Char} (he : unescape? e = some c) (done s : List Char) :
    readText done none true ('\\' :: e :: s) = readText (c :: done) none true s := by
  rw [readText.eq_def]
  split
  · next h => cases h
  · next h => cases h
  · next h =>
    -- the letter of a code is not that of a short escape
    obtain ⟨rfl, -⟩ := List.cons.inj (List.cons.inj h).2
    cases he
  · next h =>
    obtain ⟨rfl, rfl⟩ := List.cons.inj (List.cons.inj h).2
    rw [he]
    rfl
  · next hno h =>
    obtain ⟨rfl, rfl⟩ := List.cons.inj h
    exact (hno e s rfl rfl).elim

/-- Characters that spell a text are read as that text, up to the quote behind them. -/
theorem Spells.read (h : Spells s w) (done rest : List Char) :
    readText done none true (w ++ '"' :: rest) = some (some (.ofList (done.reverse ++ s)), rest) := by
  induction h generalizing done with
  | nil => rw [List.nil_append, readText_quote, List.append_nil]
  | plain hc hq hb _ ih =>
    rw [List.cons_append, readText_plain hc hq hb, ih]
    simp
  | short he _ ih =>
    rw [List.cons_append, List.cons_append, readText_short he, ih]
    simp
  | code hn hhigh hlow _ ih =>
    simp only [List.cons_append]
    rw [readText, hn]
    simp [hhigh, hlow, ih]
  | pair hn hhigh hn' hlow _ ih =>
    simp only [List.cons_append]
    rw [readText, hn]
    simp only [hhigh, if_true]
    rw [readText, hn']
    simp [hlow, ih]

/-! ### Numbers -/

/-- No number goes on at the start of a text. -/
def Stops (s : List Char) : Prop :=
  ∀ c, s.head? = some c → c.isDigit = false ∧ c ≠ '.' ∧ c ≠ 'e' ∧ c ≠ 'E'

/-- No digit stands at the start of a text. -/
def NoDigit (s : List Char) : Prop := ∀ c, s.head? = some c → c.isDigit = false

theorem Stops.noDigit (h : Stops s) : NoDigit s := fun c hc => (h c hc).1

theorem noDigit_cons (hc : c.isDigit = false) (s : List Char) : NoDigit (c :: s) := by
  intro d hd
  cases hd
  exact hc

theorem span_digits (hd : Digits ds) (hr : NoDigit rest) :
    (ds ++ rest).span Char.isDigit = (ds, rest) := by
  rw [List.span_eq_takeWhile_dropWhile, List.takeWhile_append_of_pos hd.2,
    List.dropWhile_append_of_pos hd.2]
  cases rest with
  | nil => simp
  | cons c rest => simp [hr c rfl]

theorem takeWhole?_append (hd : Digits ds) (hz : ds.head? = some '0' → ds = ['0'])
    (hr : NoDigit rest) : takeWhole? (ds ++ rest) = some (ds, rest) := by
  unfold takeWhole?
  rw [span_digits hd hr]
  split
  · next h => exact absurd (Prod.mk.inj h).1 hd.1
  · next h =>
    rw [(Prod.mk.inj h).1] at hz
    exact absurd (hz rfl) (by simp)
  · next h =>
    obtain ⟨rfl, rfl⟩ := Prod.mk.inj h
    rfl

theorem FractionWritten.read {fraction : Option (List Char)} (h : FractionWritten fraction w)
    (hr : NoDigit rest) (hp : rest.head? ≠ some '.') :
    takeFraction? (w ++ rest) = some (fraction, rest) := by
  cases h with
  | absent =>
    rw [List.nil_append]
    unfold takeFraction?
    split
    · exact absurd rfl hp
    · rfl
  | present hd =>
    rw [List.cons_append, takeFraction?, span_digits hd hr]
    split
    · next h => exact absurd (Prod.mk.inj h).1 hd.1
    · next h =>
      obtain ⟨rfl, rfl⟩ := Prod.mk.inj h
      rfl

theorem ExponentWritten.read {exponent : Option (Bool × List Char)} (h : ExponentWritten exponent w)
    (hr : Stops rest) : takeExponent? (w ++ rest) = some (exponent, rest) := by
  have signed {e : Char} (he : e = 'e' ∨ e = 'E') {negative : Bool} {t ds : List Char}
      (hs : takeSign t = (negative, ds ++ rest)) (hd : Digits ds) :
      takeExponent? (e :: t) = some (some (negative, ds), rest) := by
    rw [takeExponent?, if_pos he, hs]
    dsimp only
    rw [span_digits hd hr.noDigit]
    split
    · next h => exact absurd (Prod.mk.inj h).1 hd.1
    · next h =>
      obtain ⟨rfl, rfl⟩ := Prod.mk.inj h
      rfl
  cases h with
  | absent =>
    rw [List.nil_append]
    cases rest with
    | nil => rfl
    | cons c rest =>
      obtain ⟨-, -, he, hE⟩ := hr c rfl
      rw [takeExponent?, if_neg (not_or.2 ⟨he, hE⟩)]
  | @bare e ds he hd =>
    obtain ⟨d, t, rfl⟩ := List.exists_cons_of_ne_nil hd.1
    have hdigit := hd.2 d List.mem_cons_self
    refine signed he ?_ hd
    rw [List.cons_append]
    unfold takeSign
    split
    · next h =>
      rw [(List.cons.inj h).1] at hdigit
      cases hdigit
    · next h =>
      rw [(List.cons.inj h).1] at hdigit
      cases hdigit
    · rfl
  | plus he hd => exact signed he rfl hd
  | minus he hd => exact signed he rfl hd

theorem FractionWritten.noDigit_append {fraction : Option (List Char)} (h : FractionWritten fraction w)
    (hr : NoDigit rest) : NoDigit (w ++ rest) := by
  cases h with
  | absent => exact hr
  | present _ => exact noDigit_cons rfl _

theorem ExponentWritten.noDigit_append {exponent : Option (Bool × List Char)}
    (h : ExponentWritten exponent w) (hr : Stops rest) :
    NoDigit (w ++ rest) ∧ (w ++ rest).head? ≠ some '.' := by
  have letter {e : Char} (he : e = 'e' ∨ e = 'E') (t : List Char) :
      NoDigit (e :: t) ∧ (e :: t).head? ≠ some '.' := by
    rcases he with rfl | rfl
    · exact ⟨noDigit_cons rfl t, by simp⟩
    · exact ⟨noDigit_cons rfl t, by simp⟩
  cases h with
  | absent => exact ⟨hr.noDigit, fun h => (hr _ h).2.1 rfl⟩
  | bare he _ => exact letter he _
  | plus he _ => exact letter he _
  | minus he _ => exact letter he _

/-- The characters of a number behind its sign are read as the number, if no number goes on behind
them. -/
theorem readNumber?_append {negative : Bool} {whole f e : List Char} {fraction : Option (List Char)}
    {exponent : Option (Bool × List Char)} (hw : Digits whole)
    (hz : whole.head? = some '0' → whole = ['0']) (hf : FractionWritten fraction f)
    (he : ExponentWritten exponent e) (hr : Stops rest) :
    readNumber? negative (whole ++ (f ++ (e ++ rest))) =
      some (.number ⟨negative, whole, fraction, exponent⟩, rest) := by
  obtain ⟨hdigit, hpoint⟩ := he.noDigit_append hr
  unfold readNumber?
  rw [takeWhole?_append hw hz (hf.noDigit_append hdigit)]
  simp only [Option.bind_eq_bind, Option.bind_some, hf.read hdigit hpoint, he.read hr]
  rfl

/-! ### Trees -/

theorem readNode_number (hc : c.isDigit = true) (room : Nat) (s : List Char) :
    readNode (room + 1) (c :: s) = readNumber? false (c :: s) := by
  have hne (d : Char) (hd : d.isDigit = false) : c ≠ d := by
    rintro rfl
    rw [hc] at hd
    cases hd
  have hspace : isSpace c = false := by
    simp [isSpace, hne ' ' rfl, hne '\n' rfl, hne '\t' rfl, hne '\r' rfl]
  rw [readNode, skip_cons hspace]
  split
  · next h => exact absurd (List.cons.inj h).1 (hne 'n' rfl)
  · next h => exact absurd (List.cons.inj h).1 (hne 't' rfl)
  · next h => exact absurd (List.cons.inj h).1 (hne 'f' rfl)
  · next h => exact absurd (List.cons.inj h).1 (hne '"' rfl)
  · next h => exact absurd (List.cons.inj h).1 (hne '[' rfl)
  · next h => exact absurd (List.cons.inj h).1 (hne '\x7b' rfl)
  · next h => exact absurd (List.cons.inj h).1 (hne '-' rfl)
  · rfl

theorem readNode_minus (room : Nat) (s : List Char) :
    readNode (room + 1) ('-' :: s) = readNumber? true s := by
  rw [readNode, skip_cons rfl]
  rfl

theorem readNode_quote (room : Nat) (s : List Char) :
    readNode (room + 1) ('"' :: s) =
      match readText [] none true s with
      | none => none
      | some (some t, s) => some (.text t, s)
      | some (none, s) => some (.brokenText, s) := by
  rw [readNode, skip_cons rfl]
  rfl

theorem readNode_bracket (room : Nat) (s : List Char) :
    readNode (room + 1) ('[' :: s) =
      match skip s with
      | ']' :: s => some (.array [], s)
      | s => readItems room [] s := by
  rw [readNode, skip_cons rfl]
  rfl

theorem readNode_brace (room : Nat) (s : List Char) :
    readNode (room + 1) ('\x7b' :: s) =
      match skip s with
      | '\x7d' :: s => some (.object [], s)
      | s => readMembers room [] true s := by
  rw [readNode, skip_cons rfl]
  rfl

/-- An item is read, and the items behind a comma after it. -/
theorem readItems_comma {n : Node} {room : Nat} {t u : List Char} (h : readNode room s = some (n, t))
    (ht : skip t = ',' :: u) (done : List Node) :
    readItems (room + 1) done s = readItems room (n :: done) u := by
  rw [readItems, h]
  simp [ht]

theorem readItems_last {n : Node} {room : Nat} {t u : List Char} (h : readNode room s = some (n, t))
    (ht : skip t = ']' :: u) (done : List Node) :
    readItems (room + 1) done s = some (.array (done.reverse ++ [n]), u) := by
  rw [readItems, h]
  simp [ht]

theorem readNode_skip (room : Nat) (s : List Char) : readNode room (skip s) = readNode room s := by
  cases room with
  | zero => rw [readNode, readNode]
  | succ room => rw [readNode, readNode, skip_skip]

theorem readNode_blank (hb : Blank b) (room : Nat) (s : List Char) :
    readNode room (b ++ s) = readNode room s := by
  rw [← readNode_skip, skip_append hb, readNode_skip]

theorem readItems_skip (room : Nat) (done : List Node) (s : List Char) :
    readItems room done (skip s) = readItems room done s := by
  cases room with
  | zero => rw [readItems, readItems]
  | succ room => rw [readItems, readItems, readNode_skip]

theorem readMembers_skip (room : Nat) (done : List (String × Node)) (whole : Bool) (s : List Char) :
    readMembers room done whole (skip s) = readMembers room done whole s := by
  cases room with
  | zero => rw [readMembers, readMembers]
  | succ room => rw [readMembers, readMembers, skip_skip]

/-- The text of a part begins, behind blanks, with a character that closes nothing. -/
def Begins (w : List Char) : Prop :=
  ∃ b c t, Blank b ∧ w = b ++ c :: t ∧ isSpace c = false ∧ c ≠ ']' ∧ c ≠ '\x7d'

theorem begins_cons (hs : isSpace c = false) (hc : c ≠ ']' ∧ c ≠ '\x7d') (t : List Char) :
    Begins (c :: t) :=
  ⟨[], c, t, blank_nil, rfl, hs, hc⟩

theorem Begins.behind (h : Begins w) (hb : Blank b) (t : List Char) : Begins (b ++ (w ++ t)) := by
  obtain ⟨b', c, t', hb', rfl, hc⟩ := h
  exact ⟨b ++ b', c, t' ++ t, blank_append hb hb', by simp, hc⟩

theorem begins_of_isDigit (hc : c.isDigit = true) (t : List Char) : Begins (c :: t) := by
  have hne (d : Char) (hd : d.isDigit = false) : c ≠ d := by
    rintro rfl
    rw [hc] at hd
    cases hd
  refine begins_cons ?_ ⟨hne ']' rfl, hne '\x7d' rfl⟩ t
  simp [isSpace, hne ' ' rfl, hne '\n' rfl, hne '\t' rfl, hne '\r' rfl]

theorem NumberWritten.begins {n : NumberText} (h : NumberWritten n w) : Begins w := by
  cases h with
  | @mk negative whole _ _ _ _ hw =>
    cases negative with
    | true => exact begins_cons rfl (by decide) _
    | false =>
      obtain ⟨d, ds, rfl⟩ := List.exists_cons_of_ne_nil hw.1
      exact begins_of_isDigit (hw.2 d List.mem_cons_self) _

theorem NameWritten.begins {name : String} (h : NameWritten name w) (t : List Char) :
    Begins (w ++ t) := by
  obtain ⟨hb, -, -⟩ := h
  rw [List.append_assoc]
  exact (begins_cons (c := '"') rfl (by decide) _).behind hb t

theorem Writes.begins {part : Part} (h : Writes part w) : Begins w := by
  induction h with
  | nullWord | trueWord | falseWord => exact begins_cons rfl (by decide) _
  | number h => exact h.begins
  | text | emptyArray | array | emptyObject | object => exact begins_cons rfl (by decide) _
  | lastItem hb _ _ ih => exact ih.behind hb _
  | item hb _ _ _ ih => exact ih.behind hb _
  | lastMember hn | member hn => exact hn.begins _

theorem stops_cons (hd : c.isDigit = false) (hc : c ≠ '.' ∧ c ≠ 'e' ∧ c ≠ 'E') (s : List Char) :
    Stops (c :: s) := by
  intro d hd'
  cases hd'
  exact ⟨hd, hc⟩

theorem Blank.stops_append (hb : Blank b) (hs : Stops s) : Stops (b ++ s) := by
  cases b with
  | nil => exact hs
  | cons a b =>
    have ha := hb a List.mem_cons_self
    simp only [isSpace, Bool.or_eq_true, beq_iff_eq] at ha
    rcases ha with ((rfl | rfl) | rfl) | rfl
    all_goals exact stops_cons rfl (by decide) _

/-- The name of a member is read, and the colon behind it. -/
theorem NameWritten.read {name : String} (h : NameWritten name w) (rest : List Char) :
    ∃ s t, skip (w ++ rest) = '"' :: s ∧ readText [] none true s = some (some name, t) ∧
      skip t = ':' :: rest := by
  obtain ⟨hb, hs, hb'⟩ := h
  rename_i b w b'
  refine ⟨w ++ '"' :: (b' ++ ':' :: rest), b' ++ ':' :: rest, ?_, hs.read [] _,
    skip_blank_cons hb' rfl rest⟩
  have htext : b ++ '"' :: (w ++ '"' :: (b' ++ [':'])) ++ rest =
      b ++ '"' :: (w ++ '"' :: (b' ++ ':' :: rest)) := by simp
  rw [htext, skip_blank_cons hb rfl]

/-- Behind an opening bracket, a text that does not close it is read as items. -/
theorem readNode_items (h : Begins w) (room : Nat) (rest : List Char) :
    readNode (room + 1) ('[' :: (w ++ rest)) = readItems room [] (w ++ rest) := by
  obtain ⟨b, c, t, hb, rfl, hs, hc, -⟩ := h
  rw [readNode_bracket, ← readItems_skip, List.append_assoc, List.cons_append,
    skip_blank_cons hb hs]
  split
  · next h => exact absurd (List.cons.inj h).1 hc
  · rfl

/-- Behind an opening brace, a text that does not close it is read as members. -/
theorem readNode_members (h : Begins w) (room : Nat) (rest : List Char) :
    readNode (room + 1) ('\x7b' :: (w ++ rest)) = readMembers room [] true (w ++ rest) := by
  obtain ⟨b, c, t, hb, rfl, hs, -, hc⟩ := h
  rw [readNode_brace, ← readMembers_skip, List.append_assoc, List.cons_append,
    skip_blank_cons hb hs]
  split
  · next h => exact absurd (List.cons.inj h).1 hc
  · rfl

/-- What the reader does with a part of a text: it gives the tree, or goes on to the closing bracket,
and leaves what stands behind. -/
def Read : Part → List Char → Prop
  | .value n, w => ∀ room rest, w.length ≤ room → Stops rest →
    readNode room (w ++ rest) = some (n, rest)
  | .items ns, w => ∀ done room rest, w.length ≤ room →
    readItems room done (w ++ rest) = some (.array (done.reverse ++ ns), rest)
  | .members ms, w => ∀ done room rest, w.length ≤ room →
    readMembers room done true (w ++ rest) = some (.object (done.reverse ++ ms), rest)

theorem NumberWritten.read {n : NumberText} (h : NumberWritten n w) (room : Nat) (hr : Stops rest) :
    readNode (room + 1) (w ++ rest) = some (.number n, rest) := by
  cases h with
  | @mk negative whole _ _ _ _ hw hz hf he =>
    cases negative with
    | true =>
      simp only [if_true, List.append_assoc, List.cons_append, List.nil_append]
      rw [readNode_minus, readNumber?_append hw hz hf he hr]
    | false =>
      have hread : readNumber? false _ = some (.number _, rest) := readNumber?_append hw hz hf he hr
      obtain ⟨d, ds, rfl⟩ := List.exists_cons_of_ne_nil hw.1
      rw [List.cons_append] at hread
      simp only [Bool.false_eq_true, if_false, List.append_assoc, List.cons_append, List.nil_append]
      rw [readNode_number (hw.2 d List.mem_cons_self), hread]

/-- A member is read, and the members behind a comma after it. -/
theorem readMembers_comma {name : String} {n : Node} {v t u : List Char} {room : Nat}
    (hn : NameWritten name v) (h : readNode room s = some (n, t)) (ht : skip t = ',' :: u)
    (done : List (String × Node)) :
    readMembers (room + 1) done true (v ++ s) = readMembers room ((name, n) :: done) true u := by
  obtain ⟨s', t', hquote, hname, hcolon⟩ := hn.read s
  rw [readMembers, hquote]
  simp [hname, hcolon, h, ht]

theorem readMembers_last {name : String} {n : Node} {v t u : List Char} {room : Nat}
    (hn : NameWritten name v) (h : readNode room s = some (n, t)) (ht : skip t = '\x7d' :: u)
    (done : List (String × Node)) :
    readMembers (room + 1) done true (v ++ s) = some (.object (done.reverse ++ [(name, n)]), u) := by
  obtain ⟨s', t', hquote, hname, hcolon⟩ := hn.read s
  rw [readMembers, hquote]
  simp [hname, hcolon, h, ht]

/-- Every part of the grammar is read as what it writes. -/
theorem Writes.read {part : Part} (h : Writes part w) : Read part w := by
  -- no part is empty, so the length of a text leaves room for one more part
  have positive {w : List Char} {room : Nat} (h : w.length ≤ room) (hw : w ≠ []) :
      ∃ k, room = k + 1 := ⟨room - 1, by have := List.length_pos_iff.2 hw; omega⟩
  induction h with
  | nullWord | trueWord | falseWord =>
    intro room rest hroom _
    obtain ⟨room, rfl⟩ := positive hroom (by simp)
    rw [readNode, List.cons_append, skip_cons rfl]
    rfl
  | number h =>
    intro room rest hroom hr
    obtain ⟨b, c, t, -, rfl, -⟩ := h.begins
    obtain ⟨room, rfl⟩ := positive hroom (by simp)
    exact h.read room hr
  | text h =>
    intro room rest hroom _
    obtain ⟨room, rfl⟩ := positive hroom (by simp)
    rw [List.cons_append, List.append_assoc, List.singleton_append, readNode_quote, h.read]
    rfl
  | emptyArray hb' =>
    intro room rest hroom _
    obtain ⟨room, rfl⟩ := positive hroom (by simp)
    rw [List.cons_append, List.append_assoc, List.singleton_append, readNode_bracket,
      skip_blank_cons hb' rfl]
    rfl
  | emptyObject hb' =>
    intro room rest hroom _
    obtain ⟨room, rfl⟩ := positive hroom (by simp)
    rw [List.cons_append, List.append_assoc, List.singleton_append, readNode_brace,
      skip_blank_cons hb' rfl]
    rfl
  | array h ih =>
    intro room rest hroom _
    obtain ⟨room, rfl⟩ := positive hroom (by simp)
    rw [List.cons_append, readNode_items h.begins]
    exact ih [] room rest (Nat.le_of_succ_le_succ hroom)
  | object h ih =>
    intro room rest hroom _
    obtain ⟨room, rfl⟩ := positive hroom (by simp)
    rw [List.cons_append, readNode_members h.begins]
    exact ih [] room rest (Nat.le_of_succ_le_succ hroom)
  | @lastItem n b w b' hb _ hb' ih =>
    intro done room rest hroom
    obtain ⟨room, rfl⟩ := positive hroom (by simp)
    have hnode := ih room (b' ++ ']' :: rest) (by simp at hroom; omega)
      (hb'.stops_append (stops_cons rfl (by decide) rest))
    have htext : b ++ (w ++ (b' ++ [']'])) ++ rest = b ++ (w ++ (b' ++ ']' :: rest)) := by simp
    rw [← readNode_blank hb] at hnode
    rw [htext, readItems_last hnode (skip_blank_cons hb' rfl rest)]
  | @item n ns b w b' tail hb _ hb' _ ih ih' =>
    intro done room rest hroom
    obtain ⟨room, rfl⟩ := positive hroom (by simp)
    have hnode := ih room (b' ++ ',' :: (tail ++ rest)) (by simp at hroom; omega)
      (hb'.stops_append (stops_cons rfl (by decide) _))
    have htext : b ++ (w ++ (b' ++ ',' :: tail)) ++ rest = b ++ (w ++ (b' ++ ',' :: (tail ++ rest))) := by
      simp
    rw [← readNode_blank hb] at hnode
    rw [htext, readItems_comma hnode (skip_blank_cons hb' rfl _), ih' _ _ _ (by simp at hroom; omega)]
    simp
  | @lastMember name n v b w b' hn hb _ hb' ih =>
    intro done room rest hroom
    obtain ⟨room, rfl⟩ := positive hroom (by simp)
    have hnode := ih room (b' ++ '\x7d' :: rest) (by simp at hroom; omega)
      (hb'.stops_append (stops_cons rfl (by decide) rest))
    have htext : v ++ (b ++ (w ++ (b' ++ ['\x7d']))) ++ rest =
        v ++ (b ++ (w ++ (b' ++ '\x7d' :: rest))) := by simp
    rw [← readNode_blank hb] at hnode
    rw [htext, readMembers_last hn hnode (skip_blank_cons hb' rfl rest)]
  | @member name n ms v b w b' tail hn hb _ hb' _ ih ih' =>
    intro done room rest hroom
    obtain ⟨room, rfl⟩ := positive hroom (by simp)
    have hnode := ih room (b' ++ ',' :: (tail ++ rest)) (by simp at hroom; omega)
      (hb'.stops_append (stops_cons rfl (by decide) _))
    have htext : v ++ (b ++ (w ++ (b' ++ ',' :: tail))) ++ rest =
        v ++ (b ++ (w ++ (b' ++ ',' :: (tail ++ rest)))) := by simp
    rw [← readNode_blank hb] at hnode
    rw [htext, readMembers_comma hn hnode (skip_blank_cons hb' rfl _),
      ih' _ _ _ (by simp at hroom; omega)]
    simp

/-- A text of the grammar is read as the tree it writes. -/
theorem IsText.read? {n : Node} {text : String} (h : IsText n text) : Node.read? text = some n := by
  obtain ⟨b, w, b', hb, hw, hb', htext⟩ := h
  have hstops : Stops b' := by
    have := hb'.stops_append (s := []) nofun
    rwa [List.append_nil] at this
  have hnode := hw.read (text.toList.length + 1) b' (by simp [htext]; omega) hstops
  unfold Node.read?
  dsimp only
  rw [htext] at hnode ⊢
  rw [readNode_blank hb, hnode]
  simp [skip_of_blank hb']

end LiveNotes.Json
