import LiveNotes.Json.Printer
import LiveNotes.Proofs.Json.Reader
import LiveNotes.Proofs.Json.Writer

/-!
The text of a tree that is written to a file. Every tree that some text writes is written, and the reader
gives it back.

* `Node.Legible`: numbers of the grammar, and no broken string; `legible_iff`: just what texts can write;
* `Node.isText_pretty`: the indented text of a legible tree follows the grammar;
* `Node.read?_pretty`: it is read as the tree.
-/

namespace LiveNotes.Json

open Number

/-! ### Trees that can be written -/

/-- All numbers in the tree are written somehow, and no string in it is broken. -/
inductive Node.Legible : Node → Prop where
  | null : Legible .null
  | boolean (b : Bool) : Legible (.boolean b)
  | number {n : NumberText} {w : List Char} (h : NumberWritten n w) : Legible (.number n)
  | text (s : String) : Legible (.text s)
  | array {items : List Node} (h : ∀ n ∈ items, Legible n) : Legible (.array items)
  | object {members : List (String × Node)} (h : ∀ m ∈ members, Legible m.2) : Legible (.object members)

/-- Everything that a text of the grammar says is legible. -/
theorem Writes.legible {part : Part} {w : List Char} (h : Writes part w) :
    match part with
    | .value n => n.Legible
    | .items ns => ∀ n ∈ ns, n.Legible
    | .members ms => ∀ m ∈ ms, m.2.Legible := by
  induction h with
  | nullWord => exact .null
  | trueWord | falseWord => exact .boolean _
  | number h => exact .number h
  | text => exact .text _
  | emptyArray => exact .array nofun
  | array _ ih => exact .array ih
  | emptyObject => exact .object nofun
  | object _ ih => exact .object ih
  | lastItem _ _ _ ih => exact List.forall_mem_singleton.2 ih
  | item _ _ _ _ ih ih' => exact List.forall_mem_cons.2 ⟨ih, ih'⟩
  | lastMember _ _ _ _ ih => exact List.forall_mem_singleton.2 ih
  | member _ _ _ _ _ ih ih' => exact List.forall_mem_cons.2 ⟨ih, ih'⟩

/-! ### Parts without parts -/

/-- A number that can be written is written in one way. -/
theorem NumberWritten.text {n : NumberText} {w : List Char} (h : NumberWritten n w) :
    NumberWritten n n.text.toList := by
  obtain ⟨hw, hz, hf, he⟩ := h
  rename_i fraction exponent
  have hfraction : FractionWritten fraction (fractionText fraction) := by
    cases hf with
    | absent => exact .absent
    | present hds => exact .present hds
  have hexponent : ExponentWritten exponent (exponentText exponent) := by
    cases he with
    | absent => exact .absent
    | bare _ hds => exact .bare (.inl rfl) hds
    | plus _ hds => exact .bare (.inl rfl) hds
    | minus _ hds => exact .minus (.inl rfl) hds
  rw [NumberText.text, String.toList_ofList, List.append_assoc, List.append_assoc]
  exact .mk hw hz hfraction hexponent

theorem writes_fileQuote (s : String) : Writes (.value (.text s)) (fileQuote s).toList :=
  writes_quoteBy Spells.fileChar s

theorem memberWritten_file {m : String × Node} {text : String} (h : Writes (.value m.2) text.toList) :
    MemberWritten m (fileQuote m.1 ++ ": " ++ text).toList := by
  refine ⟨_, [' '], _, nameWritten_quoteBy Spells.fileChar m.1, by simp [Blank, isSpace], h, ?_⟩
  simp [fileQuote]

/-- A natural number is written by its digits. -/
theorem legible_ofNatural (n : Nat) : (Node.ofNatural n).Legible :=
  .number (.mk (digits_toDigits n) (toDigits_of_head? n) .absent .absent)

/-! ### Trees -/

theorem prettyItems_eq (depth : Nat) (ns : List Node) : prettyItems depth ns = ns.map (Node.prettyAt depth) := by
  induction ns with
  | nil => rfl
  | cons n ns ih => simp [prettyItems, ih]

theorem prettyMembers_eq (depth : Nat) (ms : List (String × Node)) :
    prettyMembers depth ms = ms.map fun m => fileQuote m.1 ++ ": " ++ m.2.prettyAt depth := by
  induction ms with
  | nil => rfl
  | cons m ms ih => simp [prettyMembers, ih]

/-- Whether a tree is neither an array with items nor an object with members. -/
def Node.isLeaf : Node → Bool
  | .array (_ :: _) | .object (_ :: _) => false
  | _ => true

theorem prettyAt_leaf {n : Node} (h : n.isLeaf = true) (depth : Nat) : n.prettyAt depth = n.leafText := by
  rw [Node.prettyAt]
  · rintro m ms rfl
    cases h
  · rintro m ms rfl
    cases h

theorem writes_leaf {n : Node} (hn : n.isLeaf = true) (h : Writes (.value n) n.leafText.toList) (depth : Nat) :
    Writes (.value n) (n.prettyAt depth).toList := by
  rwa [prettyAt_leaf hn]

/-- The indented text writes the tree, at any depth. -/
theorem Node.Legible.writes_prettyAt {n : Node} (h : n.Legible) (depth : Nat) :
    Writes (.value n) (n.prettyAt depth).toList := by
  induction h generalizing depth with
  | null => exact writes_leaf rfl .nullWord depth
  | boolean b =>
    cases b with
    | false => exact writes_leaf rfl .falseWord depth
    | true => exact writes_leaf rfl .trueWord depth
  | number h => exact writes_leaf rfl (.number h.text) depth
  | text s => exact writes_leaf rfl (writes_fileQuote s) depth
  | @array items h ih =>
    cases items with
    | nil => exact writes_leaf rfl (.emptyArray blank_nil) depth
    | cons n ns =>
      have hparts : List.Forall₂ (fun n part => Writes (.value n) part.toList) (n :: ns)
          ((n :: ns).map (prettyAt (depth + 1))) := by
        rw [List.forall₂_map_right_iff, List.forall₂_same]
        exact fun n hn => ih n hn (depth + 1)
      rw [prettyAt, prettyItems_eq]
      exact writes_arrayBlock depth hparts
  | @object members h ih =>
    cases members with
    | nil => exact writes_leaf rfl (.emptyObject blank_nil) depth
    | cons m ms =>
      have hparts : List.Forall₂ (fun m part => MemberWritten m part.toList) (m :: ms)
          ((m :: ms).map fun m => fileQuote m.1 ++ ": " ++ m.2.prettyAt (depth + 1)) := by
        rw [List.forall₂_map_right_iff, List.forall₂_same]
        exact fun m hm => memberWritten_file (ih m hm (depth + 1))
      rw [prettyAt, prettyMembers_eq]
      exact writes_objectBlock depth hparts

theorem Node.isText_pretty {n : Node} (h : n.Legible) : IsText n n.pretty :=
  isText_of_writes (h.writes_prettyAt 0)

/-- What is written to a file is read as the tree that was written. -/
theorem Node.read?_pretty {n : Node} (h : n.Legible) : Node.read? n.pretty = some n :=
  (isText_pretty h).read?

/-- The legible trees are those that some text writes. -/
theorem Node.legible_iff {n : Node} : n.Legible ↔ ∃ text, IsText n text := by
  refine ⟨fun h => ⟨n.pretty, isText_pretty h⟩, ?_⟩
  rintro ⟨text, b, w, b', -, hw, -⟩
  exact hw.legible

end LiveNotes.Json
