/-!
An ordered dictionary: pairs of a name and a value, in the order in which the names first came.
Every dictionary built with `insert` has each name once.

* `get?_insert`: a lookup after an insertion;
* `get?_eq_some_iff`, `isSome_get?_iff`, `mem_insert`: lookups and insertions, said by the entries;
* `nodup_keys_insert`, `nodup_keys_ofList`: the names are distinct;
* `mem_of_mem_ofList`, `isSome_get?_ofList`, `ofList_of_nodup`: a dictionary built from pairs.
-/

namespace LiveNotes

/-- Names with their values, first come first. -/
abbrev Entries (α : Type) := List (String × α)

namespace Entries

variable {α : Type}

/-- The value of a name. -/
def get? (es : Entries α) (name : String) : Option α :=
  match es with
  | [] => none
  | (k, v) :: rest => if k = name then some v else get? rest name

/-- The value of a name is set: in its place if the name is there, else at the end. -/
def insert (es : Entries α) (name : String) (value : α) : Entries α :=
  match es with
  | [] => [(name, value)]
  | (k, v) :: rest => if k = name then (k, value) :: rest else (k, v) :: insert rest name value

/-- The entries without the one of this name. -/
def erase (es : Entries α) (name : String) : Entries α :=
  match es with
  | [] => []
  | (k, v) :: rest => if k = name then rest else (k, v) :: erase rest name

/-- The names, in order. -/
def keys (es : Entries α) : List String := es.map (·.1)

/-- A dictionary from pairs: a name keeps its first place and has its last value. -/
def ofList (pairs : List (String × α)) : Entries α :=
  pairs.foldl (fun es p => es.insert p.1 p.2) []

theorem get?_insert (es : Entries α) (name other : String) (value : α) :
    (es.insert name value).get? other = if name = other then some value else es.get? other := by
  induction es with
  | nil => simp [insert, get?]
  | cons p rest ih =>
    obtain ⟨k, v⟩ := p
    by_cases hk : k = name
    · by_cases h : name = other <;> simp_all [insert, get?]
    · by_cases h : k = other
      · have : name ≠ other := fun e => hk (h.trans e.symm)
        simp_all [insert, get?]
      · simp_all [insert, get?]

theorem mem_of_get? {es : Entries α} {name : String} {v : α} (h : es.get? name = some v) :
    (name, v) ∈ es := by
  fun_induction get? es name with
  | case1 => cases h
  | case2 => cases h; exact List.mem_cons_self
  | case3 _ _ _ _ ih => exact List.mem_cons_of_mem _ (ih h)

/-- Where each name is there once, its value is found. -/
theorem get?_eq_some_iff {es : Entries α} (h : es.keys.Nodup) {name : String} {v : α} :
    es.get? name = some v ↔ (name, v) ∈ es := by
  refine ⟨mem_of_get?, fun hm => ?_⟩
  induction es with
  | nil => cases hm
  | cons e es ih =>
    obtain ⟨k, w⟩ := e
    rw [keys, List.map_cons, List.nodup_cons] at h
    rcases List.mem_cons.1 hm with he | hm
    · cases he
      rw [get?, if_pos rfl]
    · have hk : k ≠ name := fun e => h.1 (List.mem_map.2 ⟨_, hm, e.symm⟩)
      rw [get?, if_neg hk, ih h.2 hm]

theorem isSome_get?_iff {es : Entries α} {name : String} : (es.get? name).isSome ↔ name ∈ es.keys := by
  fun_induction get? es name with
  | case1 => simp [keys]
  | case2 => simp [keys]
  | case3 k v rest hk ih =>
    have hk' : ¬ name = k := fun e => hk e.symm
    rw [ih]
    simp [keys, hk']

/-- An entry behind an insertion is the new one or was there before. -/
theorem mem_insert {es : Entries α} {name : String} {v : α} {e : String × α}
    (h : e ∈ es.insert name v) : e = (name, v) ∨ e ∈ es := by
  fun_induction insert es name v with
  | case1 => exact .inl (List.mem_singleton.1 h)
  | case2 => exact (List.mem_cons.1 h).imp_right (List.mem_cons_of_mem _)
  | case3 _ _ _ _ ih =>
    rcases List.mem_cons.1 h with rfl | h
    · exact .inr List.mem_cons_self
    · exact (ih h).imp_right (List.mem_cons_of_mem _)

theorem keys_insert (es : Entries α) (name : String) (value : α) :
    (es.insert name value).keys = if name ∈ es.keys then es.keys else es.keys ++ [name] := by
  induction es with
  | nil => simp [insert, keys]
  | cons p rest ih =>
    obtain ⟨k, v⟩ := p
    by_cases hk : k = name
    · simp [insert, keys, hk]
    · have hk' : ¬ name = k := fun e => hk e.symm
      by_cases hm : name ∈ keys rest <;> simp_all [insert, keys]

theorem nodup_keys_insert {es : Entries α} (h : es.keys.Nodup) (name : String) (value : α) :
    (es.insert name value).keys.Nodup := by
  rw [keys_insert]
  split
  · exact h
  · rename_i hm
    rw [List.nodup_append]
    refine ⟨h, by simp, ?_⟩
    intro a ha b hb e
    simp only [List.mem_singleton] at hb
    exact hm (hb ▸ e ▸ ha)

/-- A name that is not there is set at the end. -/
theorem insert_of_not_mem {es : Entries α} {name : String} (h : name ∉ es.keys) (value : α) :
    es.insert name value = es ++ [(name, value)] := by
  induction es with
  | nil => rfl
  | cons p rest ih =>
    obtain ⟨k, v⟩ := p
    rw [keys, List.map_cons, List.mem_cons, not_or] at h
    rw [insert, if_neg (Ne.symm h.1), ih h.2, List.cons_append]

/-! ### Dictionaries from pairs -/

/-- A dictionary built from pairs has each name once. -/
theorem nodup_keys_ofList (pairs : List (String × α)) : (ofList pairs).keys.Nodup := by
  have key : ∀ (pairs : List (String × α)) (es : Entries α), es.keys.Nodup →
      (pairs.foldl (fun es p => es.insert p.1 p.2) es).keys.Nodup := by
    intro pairs
    induction pairs with
    | nil => exact fun _ h => h
    | cons p pairs ih => exact fun es h => ih _ (nodup_keys_insert h p.1 p.2)
  exact key pairs [] List.nodup_nil

/-- Every entry of a dictionary built from pairs is one of the pairs. -/
theorem mem_of_mem_ofList {pairs : List (String × α)} {e : String × α} (h : e ∈ ofList pairs) :
    e ∈ pairs := by
  have key : ∀ (pairs : List (String × α)) (es : Entries α),
      e ∈ pairs.foldl (fun es p => es.insert p.1 p.2) es → e ∈ es ∨ e ∈ pairs := by
    intro pairs
    induction pairs with
    | nil => exact fun _ h => .inl h
    | cons p pairs ih =>
      intro es h
      rcases ih _ h with h | h
      · exact (mem_insert h).elim (fun he => .inr (he ▸ List.mem_cons_self)) .inl
      · exact .inr (List.mem_cons_of_mem _ h)
  exact (key pairs [] h).resolve_left List.not_mem_nil

/-- Every name of the pairs has a value. -/
theorem isSome_get?_ofList {pairs : List (String × α)} {name : String} (h : name ∈ pairs.map (·.1)) :
    ((ofList pairs).get? name).isSome = true := by
  have key : ∀ (pairs : List (String × α)) (es : Entries α), name ∈ es.keys ∨ name ∈ pairs.map (·.1) →
      name ∈ (pairs.foldl (fun es p => es.insert p.1 p.2) es).keys := by
    intro pairs
    induction pairs with
    | nil => exact fun _ h => h.resolve_right List.not_mem_nil
    | cons p pairs ih =>
      intro es h
      refine ih _ ?_
      rw [keys_insert]
      rw [List.map_cons, List.mem_cons] at h
      split
      · next hm => exact h.elim .inl fun h => h.elim (fun he => .inl (he ▸ hm)) .inr
      · exact h.elim (fun h => .inl (List.mem_append_left _ h)) fun h =>
          h.elim (fun he => .inl (he ▸ List.mem_append_right _ List.mem_cons_self)) .inr
  exact isSome_get?_iff.2 (key pairs [] (.inr h))

/-- Pairs with distinct names are a dictionary as they are. -/
theorem ofList_of_nodup {pairs : List (String × α)} (h : (pairs.map (·.1)).Nodup) :
    ofList pairs = pairs := by
  have key : ∀ (pairs : List (String × α)) (es : Entries α), (es.keys ++ pairs.map (·.1)).Nodup →
      pairs.foldl (fun es p => es.insert p.1 p.2) es = es ++ pairs := by
    intro pairs
    induction pairs with
    | nil => exact fun es _ => (List.append_nil es).symm
    | cons p pairs ih =>
      intro es h
      have hnew : p.1 ∉ es.keys := fun hm =>
        (List.nodup_append.1 h).2.2 _ hm _ List.mem_cons_self rfl
      have hrest : (keys (es ++ [p]) ++ pairs.map (·.1)).Nodup := by
        simpa [keys] using h
      rw [List.foldl_cons, insert_of_not_mem hnew, ih _ hrest, List.append_assoc]
      rfl
  exact key pairs [] h

end Entries

end LiveNotes
