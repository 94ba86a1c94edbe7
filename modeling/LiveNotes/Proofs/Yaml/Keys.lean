import Mathlib
import LiveNotes.Proofs.Number.Readback
import LiveNotes.Yaml.Datum

/-!
The entries of mappings as entries of objects. Keys of all kinds become names, and different keys can have
one name, so that an entry takes the place of another one: `1` and the text `'1'` do.

* `Datum.Everywhere`: what holds of all mappings in a datum, wherever they stand;
* `Datum.toValue_mapping`: a mapping keeps its entries if its keys have different names, and only then;
* `Datum.beq_of_kind`, `Datum.nameKind_toName`: scalars that are no texts are told apart by their names;
* `Datum.keepsEntries_iff`: both, for all mappings in a datum.
-/

namespace LiveNotes.Yaml

open Number

namespace Datum

/-! ### All mappings in a datum -/

/-- A property of all mappings in a datum: of those in the items of sequences, in the keys and the values of
other mappings, and behind tags. -/
inductive Everywhere (P : List (Datum × Datum) → Prop) : Datum → Prop where
  | null : Everywhere P .null
  | boolean (b : Bool) : Everywhere P (.boolean b)
  | integer (n : Int) : Everywhere P (.integer n)
  | float (x : Float) : Everywhere P (.float x)
  | text (s : String) : Everywhere P (.text s)
  | sequence {items : List Datum} (h : ∀ d ∈ items, Everywhere P d) : Everywhere P (.sequence items)
  | mapping {entries : List (Datum × Datum)} (h : P entries) (hk : ∀ e ∈ entries, Everywhere P e.1)
      (hv : ∀ e ∈ entries, Everywhere P e.2) : Everywhere P (.mapping entries)
  | tagged (tag : String) {d : Datum} (h : Everywhere P d) : Everywhere P (.tagged tag d)

theorem Everywhere.imp {P Q : List (Datum × Datum) → Prop} {d : Datum} (h : d.Everywhere P)
    (hpq : ∀ entries, P entries → Q entries) : d.Everywhere Q := by
  induction h with
  | null => exact .null
  | boolean b => exact .boolean b
  | integer n => exact .integer n
  | float x => exact .float x
  | text s => exact .text s
  | sequence _ ih => exact .sequence ih
  | mapping h _ _ ihk ihv => exact .mapping (hpq _ h) ihk ihv
  | tagged tag _ ih => exact .tagged tag ih

/-! ### Entries -/

variable {entries : List (Datum × Datum)}

/-- All entries of a mapping are entries of the object that it becomes, in their order, each under the name of
its key with its value. -/
def KeepsEntries (entries : List (Datum × Datum)) : Prop :=
  (mapping entries).toValue = .object (entries.map fun e => (e.1.toName, e.2.toValue))

/-- No two keys of a mapping have the same name. -/
def NamesDiffer (entries : List (Datum × Datum)) : Prop := (entries.map fun e => e.1.toName).Nodup

theorem entryValues_eq (entries : List (Datum × Datum)) :
    entryValues [] entries = Entries.ofList (entries.map fun e => (e.1.toName, e.2.toValue)) := by
  unfold Entries.ofList
  generalize ([] : Entries Value) = done
  induction entries generalizing done with
  | nil => rfl
  | cons e entries ih =>
    obtain ⟨k, v⟩ := e
    rw [entryValues, ih, List.map_cons, List.foldl_cons]

/-- Entries are lost where names are the same, and only there. -/
theorem keepsEntries_iff_namesDiffer : KeepsEntries entries ↔ NamesDiffer entries := by
  have hnames : (entries.map fun e => (e.1.toName, e.2.toValue)).map (·.1) = entries.map fun e => e.1.toName := by
    rw [List.map_map]
    rfl
  unfold KeepsEntries NamesDiffer
  rw [toValue, entryValues_eq]
  constructor
  · intro h
    have hkeys := Entries.nodup_keys_ofList (entries.map fun e => (e.1.toName, e.2.toValue))
    rw [Value.object.inj h] at hkeys
    rwa [Entries.keys, hnames] at hkeys
  · intro h
    rw [Entries.ofList_of_nodup (by rwa [hnames])]

/-! ### Keys of one sort -/

/-- The kinds of scalars. -/
inductive Kind where
  | null
  | boolean
  | integer
  | float
  | text

/-- The kind of a scalar without a tag; none for other data. -/
def kind? : Datum → Option Kind
  | .null => some .null
  | .boolean _ => some .boolean
  | .integer _ => some .integer
  | .float _ => some .float
  | .text _ => some .text
  | .sequence _ | .mapping _ | .tagged _ _ => none

/-- Scalars of one kind that have the same name are the same. -/
theorem beq_of_kind {a b : Datum} {kind : Kind} (ha : a.kind? = some kind) (hb : b.kind? = some kind)
    (h : a.toName = b.toName) : a.beq b = true := by
  cases a with
  | null =>
    cases ha
    cases b with
    | null => rfl
    | _ => cases hb
  | boolean p =>
    cases ha
    cases b with
    | boolean q => cases p <;> cases q <;> first | rfl | exact absurd h (by decide)
    | _ => cases hb
  | integer n =>
    cases ha
    cases b with
    | integer m =>
      obtain rfl : n = m := Int.repr_inj.1 h
      rw [beq, beq_self_eq_true]
    | _ => cases hb
  | float x =>
    cases ha
    cases b with
    | float y => exact beq_of_keyed h
    | _ => cases hb
  | text s =>
    cases ha
    cases b with
    | text t =>
      obtain rfl : s = t := h
      rw [beq, beq_self_eq_true]
    | _ => cases hb
  | _ => cases ha

/-- The kind that a name shows if it is not that of a text: three words, digits with a minus, and other names. -/
def nameKind (name : String) : Kind :=
  if name = "null" then .null
  else if name = "true" ∨ name = "false" then .boolean
  else if name.toList.all fun c => c.isDigit || c == '-' then .integer
  else .float

/-- An integer is written in digits and a minus. -/
theorem all_repr (n : Int) : (n.repr.toList.all fun c => c.isDigit || c == '-') = true := by
  rw [List.all_eq_true]
  intro c hc
  rw [Number.intRepr_toList, List.mem_append] at hc
  rw [Bool.or_eq_true, beq_iff_eq]
  rcases hc with hc | hc
  · split at hc
    · exact .inr (List.mem_singleton.1 hc)
    · cases hc
  · exact .inl (Nat.isDigit_of_mem_toDigits (by decide) (by decide) hc)

/-- The name of a scalar that is no text shows its kind. -/
theorem nameKind_toName {d : Datum} {kind : Kind} (h : d.kind? = some kind) (hkind : kind ≠ .text) :
    nameKind d.toName = kind := by
  cases d with
  | null =>
    cases h
    rfl
  | boolean b =>
    cases h
    cases b <;> rfl
  | integer n =>
    cases h
    have hword {s : String} (hs : ¬ (s.toList.all fun c => c.isDigit || c == '-') = true) : n.repr ≠ s := by
      rintro rfl
      exact hs (all_repr n)
    unfold nameKind toName
    rw [if_neg (hword (by decide)), if_neg (not_or.2 ⟨hword (by decide), hword (by decide)⟩), if_pos (all_repr n)]
  | float x =>
    cases h
    obtain ⟨c, hc, hdigit, hminus⟩ := exists_mark_keyed x
    have hall : ¬ ((keyed x).toList.all fun c => c.isDigit || c == '-') = true := by
      intro hall
      have hmark := List.all_eq_true.1 hall c hc
      rw [hdigit, Bool.false_or, beq_iff_eq] at hmark
      exact hminus hmark
    have hnull : keyed x ≠ "null" := keyed_ne (by decide) (by decide)
    have htrue : keyed x ≠ "true" := keyed_ne (by decide) (by decide)
    have hfalse : keyed x ≠ "false" := keyed_ne (by decide) (by decide)
    unfold nameKind toName
    rw [if_neg hnull, if_neg (not_or.2 ⟨htrue, hfalse⟩), if_neg hall]
  | text s =>
    cases h
    exact absurd rfl hkind
  | _ => cases h

/-- No key of a mapping is the same as one before it. -/
def KeysDiffer (entries : List (Datum × Datum)) : Prop := entries.Pairwise fun e f => f.1.beq e.1 = false

/-- The keys of a mapping are scalars without tags, either all of them texts or none of them. -/
def KeysOfOneSort (entries : List (Datum × Datum)) : Prop :=
  (∀ e ∈ entries, e.1.kind? = some .text) ∨ ∀ e ∈ entries, ∃ kind, e.1.kind? = some kind ∧ kind ≠ .text

theorem NamesDiffer.of_keysDiffer (h : KeysDiffer entries) (hsort : KeysOfOneSort entries) : NamesDiffer entries := by
  unfold NamesDiffer
  rw [List.nodup_iff_pairwise_ne, List.pairwise_map]
  refine h.imp_of_mem ?_
  intro e f he hf hdiffer hname
  have hsame : ∃ kind, f.1.kind? = some kind ∧ e.1.kind? = some kind := by
    rcases hsort with htext | hother
    · exact ⟨.text, htext f hf, htext e he⟩
    · obtain ⟨kind, hf', hkind⟩ := hother f hf
      obtain ⟨kind', he', hkind'⟩ := hother e he
      have : kind = kind' := by rw [← nameKind_toName hf' hkind, ← nameKind_toName he' hkind', hname]
      exact ⟨kind, hf', this ▸ he'⟩
  obtain ⟨kind, hf', he'⟩ := hsame
  rw [beq_of_kind hf' he' hname.symm] at hdiffer
  cases hdiffer

/-- Every mapping in a datum keeps its entries in order exactly if the keys of every mapping have different
names. Different keys that are all texts do, and so do different keys of which none is a text, a collection
or tagged. -/
theorem everywhere_keepsEntries_iff (d : Datum) :
    (d.Everywhere KeepsEntries ↔ d.Everywhere NamesDiffer) ∧
      (d.Everywhere (fun entries => KeysDiffer entries ∧ KeysOfOneSort entries) → d.Everywhere KeepsEntries) := by
  have hiff : d.Everywhere KeepsEntries ↔ d.Everywhere NamesDiffer :=
    ⟨fun h => h.imp fun _ => keepsEntries_iff_namesDiffer.1, fun h => h.imp fun _ => keepsEntries_iff_namesDiffer.2⟩
  refine ⟨hiff, fun h => hiff.2 (h.imp ?_)⟩
  rintro entries ⟨hkeys, hsort⟩
  exact .of_keysDiffer hkeys hsort

/-- The integer `1` and the text `'1'` are different keys of one name: the value of the second takes the place
of the value of the first. -/
theorem exists_entry_lost :
    let entries : List (Datum × Datum) := [(.integer 1, .text "a"), (.text "1", .text "b")]
    (mapping entries).Everywhere KeysDiffer ∧ (mapping entries).toValue = .object [("1", .string "b")] ∧
      ¬ (mapping entries).Everywhere KeepsEntries := by
  intro entries
  have hvalue : (mapping entries).toValue = .object [("1", .string "b")] := rfl
  refine ⟨.mapping ?_ ?_ ?_, hvalue, ?_⟩
  · exact List.pairwise_pair.2 rfl
  · intro e he
    rcases List.mem_pair.1 he with rfl | rfl
    · exact .integer 1
    · exact .text "1"
  · intro e he
    rcases List.mem_pair.1 he with rfl | rfl
    · exact .text "a"
    · exact .text "b"
  · intro h
    cases h with
    | mapping h =>
      rw [KeepsEntries, hvalue] at h
      have hlength := congrArg List.length (Value.object.inj h)
      exact absurd hlength (by decide)

end Datum

end LiveNotes.Yaml
