import Mathlib.Algebra.Ring.Nat
import LiveNotes.Text.Blank
import LiveNotes.Text.Case
import LiveNotes.Text.Search

/-!
How long a text can become when its letters change case, again and again. A character weighs at least
the bytes that it takes and at most three times as much, and no change of case makes a text heavier.

* `weight`: the weight of a text, between `bytes` and three times `bytes`;
* `weight_upper`, `weight_lower`: the other case weighs no more;
* `weight_le_of_sublist`, `weight_replaceFirst`, `weight_splitAll`: parts and replacements.
-/

namespace LiveNotes.Text

/-! ### Bytes -/

/-- The bytes that characters take in UTF-8. -/
def bytes (s : List Char) : Nat := (s.map Char.utf8Size).sum

@[simp] theorem bytes_nil : bytes [] = 0 := rfl

@[simp] theorem bytes_cons (c : Char) (s : List Char) : bytes (c :: s) = c.utf8Size + bytes s := by
  simp [bytes]

@[simp] theorem bytes_append (s t : List Char) : bytes (s ++ t) = bytes s + bytes t := by
  simp [bytes]

/-- The bytes of a string are those of its characters. -/
theorem utf8ByteSize_ofList (s : List Char) : (String.ofList s).utf8ByteSize = bytes s := by
  induction s with
  | nil => simp
  | cons c s ih =>
    rw [String.ofList_cons, String.utf8ByteSize_append, String.utf8ByteSize_singleton, ih, bytes_cons]

theorem bytes_toList (s : String) : bytes s.toList = s.utf8ByteSize := by
  rw [← utf8ByteSize_ofList, String.ofList_toList]

theorem length_le_bytes (s : List Char) : s.length ≤ bytes s := by
  induction s with
  | nil => simp
  | cons c s ih =>
    have := c.utf8Size_pos
    simp only [List.length_cons, bytes_cons]
    omega

/-! ### Weight -/

/-- The weight of a code point. Letters below `0x2B0` can become letters of three bytes, three others
of two bytes become several letters, and so do many in the block from `0x1F00`, some by way of others
there. -/
def codeWeight (n : Nat) : Nat :=
  if n < 0x80 then 1
  else if n < 0x2B0 then 4
  else if n < 0x800 then if n = 0x390 ∨ n = 0x3B0 ∨ n = 0x587 then 6 else 2
  else if n < 0x1F00 ∨ 0x2000 ≤ n then 4
  else if 0x1F80 ≤ n ∧ (n < 0x1FB0 ∨ n % 16 ∈ [2, 3, 4, 5, 6, 7, 12]) then 9 else 6

/-- The weight of a text. -/
def weight (s : List Char) : Nat := (s.map fun c => codeWeight c.toNat).sum

section

variable {s t : List Char}

@[simp] theorem weight_nil : weight [] = 0 := rfl

@[simp] theorem weight_cons (c : Char) (s : List Char) :
    weight (c :: s) = codeWeight c.toNat + weight s := by
  simp [weight]

@[simp] theorem weight_append (s t : List Char) : weight (s ++ t) = weight s + weight t := by
  simp [weight]

@[simp] theorem weight_reverse (s : List Char) : weight s.reverse = weight s := by
  simp [weight]

theorem weight_flatMap_le {f : Char → List Char} (h : ∀ c, weight (f c) ≤ codeWeight c.toNat)
    (s : List Char) : weight (s.flatMap f) ≤ weight s := by
  induction s with
  | nil => simp
  | cons c s ih =>
    have := h c
    simp only [List.flatMap_cons, weight_append, weight_cons]
    omega

theorem weight_le_of_sublist (h : s.Sublist t) : weight s ≤ weight t := by
  induction h with
  | slnil => simp
  | cons c _ ih => simp only [weight_cons]; omega
  | cons_cons c _ ih => simp only [weight_cons]; omega

theorem weight_replicate (n : Nat) (s : List Char) :
    weight (List.replicate n s).flatten = n * weight s := by
  induction n with
  | zero => simp
  | succ n ih => simp [List.replicate_succ, ih, Nat.succ_mul, Nat.add_comm]

end

/-! ### Weight and bytes -/

/-- The bytes of a code point. -/
theorem utf8Size_eq (c : Char) : c.utf8Size =
    if c.toNat < 0x80 then 1 else if c.toNat < 0x800 then 2 else if c.toNat < 0x10000 then 3 else 4 := by
  have le_iff (n : UInt32) : c.val ≤ n ↔ c.toNat ≤ n.toNat := UInt32.le_iff_toNat_le
  have h1 := le_iff 0x7F
  have h2 := le_iff 0x7FF
  have h3 := le_iff 0xFFFF
  simp only [UInt32.reduceToNat] at h1 h2 h3
  unfold Char.utf8Size
  grind

theorem utf8Size_le_codeWeight (c : Char) : c.utf8Size ≤ codeWeight c.toNat := by
  rw [utf8Size_eq]
  unfold codeWeight
  grind

theorem codeWeight_le (c : Char) : codeWeight c.toNat ≤ 3 * c.utf8Size := by
  rw [utf8Size_eq]
  unfold codeWeight
  grind

theorem bytes_le_weight (s : List Char) : bytes s ≤ weight s := by
  induction s with
  | nil => exact Nat.le_refl _
  | cons c s ih =>
    have := utf8Size_le_codeWeight c
    simp only [bytes_cons, weight_cons]
    omega

theorem weight_le_bytes (s : List Char) : weight s ≤ 3 * bytes s := by
  induction s with
  | nil => exact Nat.le_refl _
  | cons c s ih =>
    have := codeWeight_le c
    simp only [bytes_cons, weight_cons]
    omega

theorem weight_le_length (s : List Char) : weight s ≤ 12 * s.length := by
  induction s with
  | nil => exact Nat.le_refl _
  | cons c s ih =>
    have := codeWeight_le c
    have := c.utf8Size_le_four
    simp only [List.length_cons, weight_cons]
    omega

/-- The weight of a text in ASCII is its length. -/
theorem weight_of_ascii {s : List Char} (h : ∀ c ∈ s, c.toNat < 0x80) : weight s = s.length := by
  induction s with
  | nil => rfl
  | cons c s ih =>
    rw [weight_cons, codeWeight, if_pos (h c List.mem_cons_self),
      ih fun d hd => h d (List.mem_cons_of_mem _ hd), List.length_cons, Nat.add_comm]

/-! ### Change of case -/

/-- A number that is no code point gives the zero character. -/
theorem weight_ofNat_le (n : Nat) : codeWeight (Char.ofNat n).toNat ≤ codeWeight n := by
  unfold Char.ofNat
  by_cases hn : n.isValidChar
  · rw [dif_pos hn]
    exact Nat.le_refl _
  · rw [dif_neg hn]
    change 1 ≤ codeWeight n
    unfold codeWeight
    grind

/-- No image under a run weighs more than the code point that it belongs to. -/
def Lightens (r : CaseRun) : Prop :=
  ∀ k < (r.last - r.first) / r.stride + 1,
    codeWeight (((r.first + r.stride * k : Nat) : Int) + r.shift).toNat ≤
      codeWeight (r.first + r.stride * k)

instance : DecidablePred Lightens := fun r => by unfold Lightens; infer_instance

theorem upperRuns_lighten : ∀ r ∈ upperRuns, Lightens r := by decide +kernel

theorem lowerRuns_lighten : ∀ r ∈ lowerRuns, Lightens r := by decide +kernel

/-- No expansion weighs more than its character. -/
theorem expansions_lighten : ∀ e ∈ upperExpansions ++ lowerExpansions,
    (e.2.map codeWeight).sum ≤ codeWeight e.1 := by
  decide +kernel

theorem image?_lighten {r : CaseRun} (h : Lightens r) {n image : Nat} (hn : r.image? n = some image) :
    codeWeight image ≤ codeWeight n := by
  unfold CaseRun.image? at hn
  split at hn
  · next hc =>
    cases hn
    simp only [Bool.and_eq_true, decide_eq_true_eq, beq_iff_eq] at hc
    obtain ⟨⟨hf, hl⟩, hs⟩ := hc
    have hd := Nat.div_add_mod (n - r.first) r.stride
    have := h ((n - r.first) / r.stride) (Nat.lt_succ_of_le (Nat.div_le_div_right (by omega)))
    rwa [show r.first + r.stride * ((n - r.first) / r.stride) = n by omega] at this
  · cases hn

theorem weight_map_ofNat_le (image : List Nat) :
    weight (image.map Char.ofNat) ≤ (image.map codeWeight).sum := by
  induction image with
  | nil => exact Nat.le_refl _
  | cons n image ih =>
    have := weight_ofNat_le n
    simp only [List.map_cons, weight_cons, List.sum_cons]
    omega

theorem weight_mapCase {runs : List CaseRun} {expansions : List (Nat × List Nat)}
    (hr : ∀ r ∈ runs, Lightens r) (he : ∀ e ∈ expansions, e ∈ upperExpansions ++ lowerExpansions)
    (c : Char) : weight (mapCase runs expansions c) ≤ codeWeight c.toNat := by
  unfold mapCase
  split
  · next image hl =>
    obtain ⟨before, behind, hs, -⟩ := List.lookup_eq_some_iff.1 hl
    exact Nat.le_trans (weight_map_ofNat_le image) (expansions_lighten (c.toNat, image) (he _ (by simp [hs])))
  · split
    · next image hi =>
      obtain ⟨r, hm, hi⟩ := List.exists_of_findSome?_eq_some hi
      have := image?_lighten (hr r hm) hi
      have := weight_ofNat_le image
      simp only [weight_cons, weight_nil]
      omega
    · simp

/-- ASCII stays ASCII. -/
theorem weight_ascii_le {c d : Char} (hc : c.toNat < 0x80) (h : d.toNat < 0x80) :
    weight [d] ≤ codeWeight c.toNat := by
  simp [codeWeight, hc, h]

theorem weight_upperChar (c : Char) : weight (upperChar c) ≤ codeWeight c.toNat := by
  unfold upperChar
  split
  · next hc =>
    have ascii : ∀ n < 0x80, (Char.ofNat n).toUpper.toNat < 0x80 := by decide
    have := ascii c.toNat hc
    rw [Char.ofNat_toNat] at this
    exact weight_ascii_le hc this
  · exact weight_mapCase upperRuns_lighten (fun e => List.mem_append_left _) c

theorem weight_lowerChar (c : Char) : weight (lowerChar c) ≤ codeWeight c.toNat := by
  unfold lowerChar
  split
  · next hc =>
    have ascii : ∀ n < 0x80, (Char.ofNat n).toLower.toNat < 0x80 := by decide
    have := ascii c.toNat hc
    rw [Char.ofNat_toNat] at this
    exact weight_ascii_le hc this
  · exact weight_mapCase lowerRuns_lighten (fun e => List.mem_append_right _) c

theorem weight_upper (s : List Char) : weight (upper s) ≤ weight s :=
  weight_flatMap_le weight_upperChar s

theorem weight_lowerFrom (passed done s : List Char) :
    weight (lowerFrom passed done s) ≤ weight done + weight s := by
  induction s generalizing passed done with
  | nil => simp [lowerFrom]
  | cons c s ih =>
    rw [lowerFrom]
    refine Nat.le_trans (ih _ _) ?_
    have image : weight (if c == 'Σ' then (if casedNext passed && !casedNext s then ['ς'] else ['σ'])
        else lowerChar c) ≤ codeWeight c.toNat := by
      split
      · next hc =>
        rw [beq_iff_eq.1 hc]
        split <;> decide
      · exact weight_lowerChar c
    simp only [weight_append, weight_reverse, weight_cons]
    omega

theorem weight_lower (s : List Char) : weight (lower s) ≤ weight s := by
  have := weight_lowerFrom [] [] s
  simpa [lower] using this

/-! ### Parts and replacements -/

theorem weight_trimStart (s : List Char) : weight (trimStart s) ≤ weight s :=
  weight_le_of_sublist (List.dropWhile_sublist _)

theorem weight_trimEnd (s : List Char) : weight (trimEnd s) ≤ weight s := by
  rw [trimEnd, weight_reverse, ← weight_reverse s]
  exact weight_le_of_sublist (List.dropWhile_sublist _)

theorem weight_trim (s : List Char) : weight (trim s) ≤ weight s :=
  Nat.le_trans (weight_trimEnd _) (weight_trimStart s)

theorem weight_replaceFirst (old new s : List Char) :
    weight (replaceFirst old new s) ≤ weight s + weight new := by
  unfold replaceFirst
  split
  · omega
  · next hc =>
    rw [cut?_eq_some hc]
    simp only [weight_append]
    omega

/-- The parts of a text weigh no more than the text. -/
theorem weight_splitFrom (sep : List Char) (hs : sep ≠ []) (found : List (List Char)) (s : List Char) :
    ((splitFrom sep hs found s).map weight).sum ≤ (found.map weight).sum + weight s := by
  fun_induction splitFrom sep hs found s with
  | case1 found s h =>
    simp
  | case2 found s before behind h ih =>
    rw [cut?_eq_some h]
    simp only [List.map_cons, List.sum_cons, weight_append] at ih ⊢
    omega

theorem weight_splitAll (sep s : List Char) : ((splitAll sep s).map weight).sum ≤ weight s := by
  unfold splitAll
  split
  · simpa using weight_splitFrom sep _ [] s
  · simp

end LiveNotes.Text
