import LiveNotes.Markup
import LiveNotes.Proofs.Text.Search

/-!
# Queries as attributes

An encoded query has none of the characters that the markup is made of (`not_mem_encodeQuery`), and
decoding it gives the query back (`decodeQuery_encodeQuery`). Together: a query can be put into an
attribute, and nothing of it is lost (`encodeQuery_reversible`).

Decoding replaces one entity after the other. `encodeSome cs` encodes only the characters `cs`, so each
of its steps takes `encodeSome (c :: cs)` to `encodeSome cs` (`replaceAll_encodeSome`), and all of them
together leave nothing encoded (`foldl_replaceAll_encodeSome`). The ampersand has to come last: as long
as it is encoded, an ampersand in the text always starts an entity.
-/

namespace LiveNotes

open Text

/-! ### Replacing in what was built character by character -/

/-- A text without the first character of an occurrence stays. -/
theorem replaceAll_append_of_not_mem {c : Char} {old new s : List Char} (h : c ∉ s)
    (rest : List Char) :
    replaceAll (c :: old) new (s ++ rest) = s ++ replaceAll (c :: old) new rest := by
  induction s with
  | nil => rfl
  | cons x s ih =>
    have hx : stripLead? (c :: old) (x :: (s ++ rest)) = none := by
      rw [stripLead?_eq_none_iff, List.cons_prefix_cons]
      exact fun hp => h (hp.1 ▸ List.mem_cons_self)
    rw [List.cons_append, replaceAll_cons (List.cons_ne_nil c old) hx,
      ih fun hm => h (List.mem_cons_of_mem x hm), List.cons_append]

theorem replaceAll_flatMap {old new : List Char} {f g : Char → List Char} (ho : old ≠ [])
    (h : ∀ c rest, replaceAll old new (f c ++ rest) = g c ++ replaceAll old new rest)
    (s : List Char) : replaceAll old new (s.flatMap f) = s.flatMap g := by
  induction s with
  | nil => exact replaceAll_nil ho
  | cons c s ih => rw [List.flatMap_cons, h, ih, List.flatMap_cons]

/-! ### Entities -/

/-- The characters that are encoded, in the order in which they are decoded. -/
def entityChars : List Char := ['\n', '"', '<', '>', '&']

theorem mem_entityChars_iff {c : Char} :
    c ∈ entityChars ↔ c = '\n' ∨ c = '"' ∨ c = '<' ∨ c = '>' ∨ c = '&' := by
  simp [entityChars]

/-- A character, encoded only if it is one of `cs`. -/
def encodeSome (cs : List Char) (c : Char) : List Char := if c ∈ cs then encodeChar c else [c]

theorem encodeChar_of_not_mem {c : Char} (h : c ∉ entityChars) : encodeChar c = [c] := by
  rw [mem_entityChars_iff] at h
  unfold encodeChar
  split <;> simp_all

theorem encodeQuery_eq (query : List Char) :
    encodeQuery query = query.flatMap (encodeSome entityChars) := by
  refine List.flatMap_congr fun c _ => ?_
  by_cases h : c ∈ entityChars
  · rw [encodeSome, if_pos h]
  · rw [encodeSome, if_neg h, encodeChar_of_not_mem h]

/-- An entity starts with the only ampersand in it. -/
theorem encodeChar_eq_cons {c : Char} (h : c ∈ entityChars) :
    ∃ name, encodeChar c = '&' :: name ∧ '&' ∉ name := by
  rcases mem_entityChars_iff.1 h with rfl | rfl | rfl | rfl | rfl
  · exact ⟨"#10;".toList, rfl, by decide⟩
  · exact ⟨"quot;".toList, rfl, by decide⟩
  · exact ⟨"lt;".toList, rfl, by decide⟩
  · exact ⟨"gt;".toList, rfl, by decide⟩
  · exact ⟨"amp;".toList, rfl, by decide⟩

/-- No entity is the start of another. -/
theorem not_encodeChar_prefix_append {c x : Char} (hc : c ∈ entityChars) (hx : x ∈ entityChars)
    (hne : c ≠ x) (rest : List Char) : ¬ encodeChar x <+: encodeChar c ++ rest := by
  have hd : (entityChars.all fun c => entityChars.all fun x =>
      c == x || !(encodeChar x).isPrefixOf (encodeChar c)) = true := by decide
  simp only [List.all_eq_true, Bool.or_eq_true, beq_iff_eq, Bool.not_eq_true',
    ← Bool.not_eq_true, List.isPrefixOf_iff_prefix] at hd
  intro h
  rcases List.prefix_or_prefix_of_prefix h (List.prefix_append (encodeChar c) rest) with h | h
  · exact (hd c hc x hx).elim hne (absurd h)
  · exact (hd x hx c hc).elim hne.symm (absurd h)

/-- Replacing the entity of one character decodes that character and no other. -/
theorem replaceAll_encodeSome {x : Char} {cs : List Char} (hx : x ∈ entityChars)
    (hs : cs ⊆ entityChars) (hxs : x ∉ cs) (hamp : '&' ∈ x :: cs) (s : List Char) :
    replaceAll (encodeChar x) [x] (s.flatMap (encodeSome (x :: cs))) = s.flatMap (encodeSome cs) := by
  obtain ⟨name, he, -⟩ := encodeChar_eq_cons hx
  have hne : encodeChar x ≠ [] := he ▸ List.cons_ne_nil _ _
  refine replaceAll_flatMap hne (fun c rest => ?_) s
  by_cases hcx : c = x
  · subst hcx
    rw [encodeSome, if_pos List.mem_cons_self, encodeSome, if_neg hxs, replaceAll_append hne]
  by_cases hc : c ∈ cs
  · -- another entity: it is not that of `x`, and no entity starts inside it
    rw [encodeSome, if_pos (List.mem_cons_of_mem x hc), encodeSome, if_pos hc]
    obtain ⟨other, ho, hamp'⟩ := encodeChar_eq_cons (hs hc)
    have hn := stripLead?_eq_none_iff.2 (not_encodeChar_prefix_append (hs hc) hx hcx rest)
    rw [ho, List.cons_append] at hn ⊢
    rw [replaceAll_cons hne hn, he, replaceAll_append_of_not_mem hamp', List.cons_append]
  · have hcs : c ∉ x :: cs := by simp [hcx, hc]
    have hca : '&' ∉ [c] := fun hm => hcs (List.mem_singleton.1 hm ▸ hamp)
    rw [encodeSome, if_neg hcs, encodeSome, if_neg hc, he, replaceAll_append_of_not_mem hca]

/-- Decoding characters one after the other, with the ampersand last, leaves none of them encoded. -/
theorem foldl_replaceAll_encodeSome {cs : List Char} (hs : cs ⊆ entityChars) (hn : cs.Nodup)
    (hamp : cs ≠ [] → cs.getLast? = some '&') (s : List Char) :
    cs.foldl (fun s c => replaceAll (encodeChar c) [c] s) (s.flatMap (encodeSome cs)) = s := by
  induction cs with
  | nil =>
    have he : encodeSome [] = fun c => [c] := funext fun c => if_neg List.not_mem_nil
    rw [List.foldl_nil, he]
    exact List.flatMap_singleton' s
  | cons x cs ih =>
    have hlast := hamp (List.cons_ne_nil x cs)
    rw [List.cons_subset] at hs
    rw [List.nodup_cons] at hn
    rw [List.foldl_cons, replaceAll_encodeSome hs.1 hs.2 hn.1 (List.mem_of_getLast? hlast)]
    refine ih hs.2 hn.2 fun hne => ?_
    obtain ⟨y, cs, rfl⟩ := List.exists_cons_of_ne_nil hne
    rwa [List.getLast?_cons_cons] at hlast

/-- Decoding undoes encoding. -/
theorem decodeQuery_encodeQuery (query : List Char) : decodeQuery (encodeQuery query) = query := by
  have hd : ∀ s, decodeQuery s = entityChars.foldl (fun s c => replaceAll (encodeChar c) [c] s) s :=
    fun s => rfl
  rw [hd, encodeQuery_eq]
  exact foldl_replaceAll_encodeSome (List.Subset.refl _) (by decide) (fun _ => rfl) query

/-! ### The characters of an encoded query -/

/-- Markup characters and ends of lines do not occur in an encoded query. -/
theorem not_mem_encodeQuery {c : Char} (h : c ∈ ['\n', '"', '<', '>']) (query : List Char) :
    c ∉ encodeQuery query := by
  have hd : (['\n', '"', '<', '>'].all fun c => entityChars.all fun x =>
      !(encodeChar x).contains c) = true := by decide
  simp only [List.all_eq_true, Bool.not_eq_true', ← Bool.not_eq_true, List.contains_iff_mem] at hd
  intro hm
  obtain ⟨x, -, hx⟩ := List.mem_flatMap.1 hm
  by_cases hxe : x ∈ entityChars
  · exact hd c h x hxe hx
  · rw [encodeChar_of_not_mem hxe, List.mem_singleton] at hx
    subst hx
    have hs : ['\n', '"', '<', '>'] ⊆ entityChars := by decide
    exact hxe (hs h)

theorem encodeQuery_ne_nil {query : List Char} (h : query ≠ []) : encodeQuery query ≠ [] := by
  intro he
  rw [← decodeQuery_encodeQuery query, he] at h
  exact h (decodeQuery_encodeQuery [])

theorem decodeQuery_ne_nil {encoded : List Char} (h : encoded ≠ []) : decodeQuery encoded ≠ [] := by
  simp only [decodeQuery, List.foldl_cons, List.foldl_nil]
  repeat refine replaceAll_ne_nil (by decide) (List.cons_ne_nil _ _) ?_
  exact h

/-- An encoded query can stand in an attribute: it has no double quote, no angle bracket and no end of a
line in it. Decoding gives the query back, also where the query itself looks like entities. -/
theorem encodeQuery_reversible (query : List Char) :
    '"' ∉ encodeQuery query ∧ '<' ∉ encodeQuery query ∧ '>' ∉ encodeQuery query ∧
      '\n' ∉ encodeQuery query ∧ decodeQuery (encodeQuery query) = query := by
  have hsafe : ∀ c ∈ ['\n', '"', '<', '>'], c ∉ encodeQuery query := fun c hc =>
    not_mem_encodeQuery hc query
  refine ⟨hsafe _ ?_, hsafe _ ?_, hsafe _ ?_, hsafe _ ?_, decodeQuery_encodeQuery query⟩
  all_goals decide

-- the ampersand is decoded last, so an entity in the query stays one
example : decodeQuery "&amp;lt;".toList = "&lt;".toList := by cbv

end LiveNotes
