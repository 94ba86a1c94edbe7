import LiveNotes.Proofs.Text.Weight

/-!
Texts as bytes. A byte of a text can stand inside a character, and the text can be cut only where one
begins or at its end.

* `utf8`: the bytes of a text; `getElem?_utf8_append`: the byte behind some characters;
* `firstByte`: the first byte of a character, which tells characters of ASCII from all others;
* `cutAt?`: a text cut at a byte; `isSome_cutAt?_iff`: the bytes where this can be done.
-/

namespace LiveNotes.Text

/-! ### Bytes of characters -/

/-- The bytes of a text. -/
def utf8 (s : List Char) : List UInt8 := (String.ofList s).toUTF8.data.toList

theorem utf8_eq_flatMap (s : List Char) : utf8 s = s.flatMap String.utf8EncodeChar :=
  List.toList_data_toByteArray

theorem utf8_cons (c : Char) (s : List Char) : utf8 (c :: s) = String.utf8EncodeChar c ++ utf8 s := by
  rw [utf8_eq_flatMap, utf8_eq_flatMap, List.flatMap_cons]

theorem utf8_append (s t : List Char) : utf8 (s ++ t) = utf8 s ++ utf8 t := by
  rw [utf8_eq_flatMap, utf8_eq_flatMap, utf8_eq_flatMap, List.flatMap_append]

theorem length_utf8 (s : List Char) : (utf8 s).length = bytes s := by
  induction s with
  | nil => rfl
  | cons c s ih => rw [utf8_cons, List.length_append, ih, String.length_utf8EncodeChar, bytes_cons]

/-- The first byte of a character. -/
def firstByte (c : Char) : UInt8 := (String.utf8EncodeChar c).head String.utf8EncodeChar_ne_nil

theorem toNat_firstByte_of_lt {c : Char} (h : c.toNat < 128) : (firstByte c).toNat = c.toNat := by
  have hv : c.val.toNat ≤ 127 := Nat.le_of_lt_succ h
  have hbytes : String.utf8EncodeChar c = [UInt8.ofNat c.toNat] := by
    unfold String.utf8EncodeChar
    rw [if_pos hv]
    rfl
  simp only [firstByte, hbytes, List.head_cons]
  rw [UInt8.toNat_ofNat']
  omega

theorem le_firstByte {c : Char} (h : 128 ≤ c.toNat) : 128 ≤ (firstByte c).toNat := by
  have hv : ¬ c.val.toNat ≤ 127 := Nat.not_le_of_lt h
  unfold firstByte String.utf8EncodeChar
  simp only [if_neg hv]
  split_ifs <;> simp only [List.head_cons, UInt8.toNat_ofNat'] <;> omega

/-- A character of ASCII is known by its first byte. -/
theorem firstByte_eq_iff {c d : Char} (hd : d.toNat < 128) : firstByte c = firstByte d ↔ c = d := by
  refine ⟨fun h => ?_, fun h => h ▸ rfl⟩
  have hn := congrArg UInt8.toNat h
  rw [toNat_firstByte_of_lt hd] at hn
  by_cases hc : c.toNat < 128
  · rw [toNat_firstByte_of_lt hc] at hn
    exact Char.toNat_inj.1 hn
  · have := le_firstByte (Nat.le_of_not_lt hc)
    omega

/-- The byte behind some characters is the first one of the next character. -/
theorem getElem?_utf8_append (s t : List Char) : (utf8 (s ++ t))[bytes s]? = t.head?.map firstByte := by
  rw [utf8_append, ← length_utf8, List.getElem?_append_right (Nat.le_refl _), Nat.sub_self]
  cases t with
  | nil => rfl
  | cons c t =>
    rw [utf8_cons, List.getElem?_append_left (List.length_pos_iff.2 String.utf8EncodeChar_ne_nil), ← List.head?_eq_getElem?,
      List.head?_eq_some_head String.utf8EncodeChar_ne_nil]
    rfl

/-! ### Cuts -/

/-- The text before and behind a byte; none inside a character and beyond the end. -/
def cutAt? : Nat → List Char → Option (List Char × List Char)
  | 0, s => some ([], s)
  | _ + 1, [] => none
  | n + 1, c :: s =>
    if c.utf8Size ≤ n + 1 then (cutAt? (n + 1 - c.utf8Size) s).map fun (before, behind) => (c :: before, behind)
    else none

theorem cutAt?_append (s t : List Char) : cutAt? (bytes s) (s ++ t) = some (s, t) := by
  induction s with
  | nil => cases t <;> rfl
  | cons c s ih =>
    have hpos := c.utf8Size_pos
    obtain ⟨n, hn⟩ : ∃ n, bytes (c :: s) = n + 1 := ⟨bytes (c :: s) - 1, by rw [bytes_cons]; omega⟩
    have hrest : n + 1 - c.utf8Size = bytes s := by
      rw [← hn, bytes_cons]
      omega
    have hle : c.utf8Size ≤ n + 1 := by
      rw [← hn, bytes_cons]
      omega
    rw [hn, List.cons_append, cutAt?, if_pos hle, hrest, ih]
    rfl

theorem cutAt?_eq_some_iff {n : Nat} {s before behind : List Char} :
    cutAt? n s = some (before, behind) ↔ s = before ++ behind ∧ bytes before = n := by
  constructor
  · intro h
    induction s generalizing n before with
    | nil =>
      cases n with
      | zero =>
        cases h
        exact ⟨rfl, rfl⟩
      | succ n => cases h
    | cons c s ih =>
      cases n with
      | zero =>
        cases h
        exact ⟨rfl, rfl⟩
      | succ n =>
        rw [cutAt?] at h
        by_cases hle : c.utf8Size ≤ n + 1
        · rw [if_pos hle] at h
          obtain ⟨⟨a, b⟩, hab, hcons⟩ := Option.map_eq_some_iff.1 h
          cases hcons
          obtain ⟨hs, hn⟩ := ih hab
          refine ⟨by rw [hs, List.cons_append], ?_⟩
          rw [bytes_cons, hn]
          omega
        · rw [if_neg hle] at h
          cases h
  · rintro ⟨rfl, rfl⟩
    exact cutAt?_append before behind

/-- A text can be cut at the bytes where characters begin and at its end. -/
theorem isSome_cutAt?_iff {n : Nat} {s : List Char} :
    (cutAt? n s).isSome = true ↔ String.Pos.Raw.IsValid (String.ofList s) ⟨n⟩ := by
  rw [String.Pos.Raw.isValid_ofList]
  constructor
  · intro h
    obtain ⟨⟨before, behind⟩, hcut⟩ := Option.isSome_iff_exists.1 h
    obtain ⟨rfl, rfl⟩ := cutAt?_eq_some_iff.1 hcut
    refine ⟨before.length, ?_⟩
    rw [List.take_left, utf8ByteSize_ofList]
  · rintro ⟨i, hi⟩
    rw [utf8ByteSize_ofList] at hi
    exact Option.isSome_of_eq_some (cutAt?_eq_some_iff.2 ⟨(List.take_append_drop i s).symm, hi.symm⟩)

end LiveNotes.Text
