import Mathlib
import LiveNotes.Proofs.Text.Pieces
import LiveNotes.Proofs.Text.Search
import LiveNotes.Query.Eval

/-!
Code blocks: values in the placeholders of a template. What a placeholder is, and which ones count, is
said without the search for them.

* `IsPlaceholder`, `FirstPlaceholder`: a text in double braces, and the one that counts first;
* `Template`: a text cut at its placeholders, one after the other; there is one way to do so
  (`Template.unique`, `exists_template`);
* `placeholder?_eq_some`, `placeholder?_eq_none`: what the search finds at the start of a text;
* `value?_codeBlock`: the value of a code block.
-/

namespace LiveNotes

open Text

/-! ### Templates -/

/-- Two braces, a name of at least one character on one line, and two braces. -/
def IsPlaceholder (p : List Char) : Prop :=
  ∃ name, p = ['\x7b', '\x7b'] ++ (name ++ ['\x7d', '\x7d']) ∧ name ≠ [] ∧ '\n' ∉ name

/-- A placeholder with the texts before and behind it, such that none starts further to the front, and
none that starts at the same place is shorter. -/
structure FirstPlaceholder (before p behind : List Char) : Prop where
  isPlaceholder : IsPlaceholder p
  first : ∀ b q e, b ++ (q ++ e) = before ++ (p ++ behind) → IsPlaceholder q →
    before.length < b.length ∨ before.length = b.length ∧ p.length ≤ q.length

/-- A text cut at its placeholders: the texts before each of them, and the text behind the last. -/
inductive Template : List Char → List (List Char) → List Char → Prop where
  | plain {s : List Char} (h : ∀ b q e, b ++ (q ++ e) = s → ¬ IsPlaceholder q) : Template s [] s
  | place {before p behind : List Char} {befores : List (List Char)} {last : List Char}
      (h : FirstPlaceholder before p behind) (ht : Template behind befores last) :
      Template (before ++ (p ++ behind)) (before :: befores) last

/-- The texts of a template with values in place of the placeholders between them. -/
def filled (befores : List (List Char)) (last : List Char) (values : List (List Char)) : List Char :=
  (befores.zipWith (· ++ ·) values).flatten ++ last

theorem FirstPlaceholder.unique {before p behind before' p' behind' : List Char}
    (h : FirstPlaceholder before p behind) (h' : FirstPlaceholder before' p' behind')
    (he : before ++ (p ++ behind) = before' ++ (p' ++ behind')) :
    before = before' ∧ behind = behind' := by
  have hle := h.first _ _ _ he.symm h'.isPlaceholder
  have hge := h'.first _ _ _ he h.isPlaceholder
  obtain ⟨hb, hrest⟩ := List.append_inj he (by omega)
  obtain ⟨-, he⟩ := List.append_inj hrest (by omega)
  exact ⟨hb, he⟩

/-- A text is cut at its placeholders in one way. -/
theorem Template.unique {s last last' : List Char} {befores befores' : List (List Char)}
    (h : Template s befores last) (h' : Template s befores' last') : befores' = befores ∧ last' = last := by
  induction h generalizing befores' with
  | plain h =>
    cases h' with
    | plain => exact ⟨rfl, rfl⟩
    | place h' => exact absurd h'.isPlaceholder (h _ _ _ rfl)
  | @place before p behind befores last h ht ih =>
    generalize hs : before ++ (p ++ behind) = t at h'
    cases h' with
    | plain h' => exact absurd h.isPlaceholder (h' _ _ _ hs)
    | place h' ht' =>
      obtain ⟨rfl, rfl⟩ := h.unique h' hs
      obtain ⟨rfl, rfl⟩ := ih ht'
      exact ⟨rfl, rfl⟩

/-- A character that no placeholder starts at belongs to the text before the first one. -/
theorem Template.cons {s last : List Char} {befores : List (List Char)} {c : Char}
    (h : ∀ q e, q ++ e = c :: s → ¬ IsPlaceholder q) (ht : Template s befores last) :
    ∃ befores' last', Template (c :: s) befores' last' ∧ befores'.length = befores.length ∧
      ∀ values, values.length = befores.length →
        filled befores' last' values = c :: filled befores last values := by
  cases ht with
  | plain hs =>
    refine ⟨[], c :: s, .plain fun b q e he hq => ?_, rfl, fun values hv => ?_⟩
    · cases b with
      | nil => exact h q e he hq
      | cons d b => exact hs b q e (List.cons_eq_cons.1 he).2 hq
    · simp [filled]
  | @place before p behind befores last hp ht =>
    have hfirst : FirstPlaceholder (c :: before) p behind := by
      refine ⟨hp.isPlaceholder, fun b q e he hq => ?_⟩
      cases b with
      | nil => exact absurd hq (h q e he)
      | cons d b =>
        have := hp.first b q e (List.cons_eq_cons.1 he).2 hq
        simp only [List.length_cons]
        omega
    refine ⟨(c :: before) :: befores, last, .place hfirst ht, rfl, fun values hv => ?_⟩
    cases values with
    | nil => cases hv
    | cons v values => simp [filled]

/-! ### What the search finds -/

section Search

variable {s : List Char}

/-- The placeholders at the start of a text, seen behind their two braces and one character. -/
theorem isPlaceholder_iff {q e rest : List Char} {c : Char}
    (he : q ++ e = '\x7b' :: '\x7b' :: c :: rest) : IsPlaceholder q ↔
      ∃ name, q = '\x7b' :: '\x7b' :: c :: (name ++ ['\x7d', '\x7d']) ∧
        rest = name ++ (['\x7d', '\x7d'] ++ e) ∧ c ≠ '\n' ∧ '\n' ∉ name := by
  constructor
  · rintro ⟨name, rfl, hne, hline⟩
    obtain ⟨d, name, rfl⟩ := List.exists_cons_of_ne_nil hne
    simp only [List.cons_append, List.nil_append, List.append_assoc, List.cons.injEq, true_and] at he
    obtain ⟨rfl, rfl⟩ := he
    rw [List.mem_cons, not_or] at hline
    exact ⟨name, rfl, rfl, Ne.symm hline.1, hline.2⟩
  · rintro ⟨name, rfl, -, hc, hline⟩
    exact ⟨c :: name, rfl, List.cons_ne_nil c name, by simp [hline, Ne.symm hc]⟩

/-- No placeholder starts where the search finds none. -/
theorem placeholder?_eq_none (h : placeholder? s = none) {q e : List Char} (he : q ++ e = s) :
    ¬ IsPlaceholder q := by
  intro hq
  have hstart : ∃ c rest, s = '\x7b' :: '\x7b' :: c :: rest := by
    obtain ⟨name, rfl, hne, -⟩ := hq
    obtain ⟨d, name, rfl⟩ := List.exists_cons_of_ne_nil hne
    exact ⟨d, _, he.symm⟩
  obtain ⟨c, rest, rfl⟩ := hstart
  obtain ⟨name, -, hrest, hc, hline⟩ := (isPlaceholder_iff he).1 hq
  rw [placeholder?, if_neg hc] at h
  split at h
  · next found behind hcut =>
    split at h
    · next hmem =>
      have hshorter := prefix_of_cut? hcut hrest
      exact hline (hshorter.subset (by simpa using hmem))
    · cases h
  · next hcut => exact cut?_eq_none_iff.1 hcut ⟨name, e, by rw [hrest, List.append_assoc]⟩

/-- What the search finds at the start of a text is the placeholder that counts. -/
theorem placeholder?_eq_some {hit : Hit s Unit} (h : placeholder? s = some hit) :
    ∃ p, s = p ++ hit.behind ∧ FirstPlaceholder [] p hit.behind := by
  unfold placeholder? at h
  split at h
  · next c rest =>
    split at h
    · cases h
    · next hc =>
      split at h
      · next name behind hcut =>
        split at h
        · cases h
        · next hline =>
          cases h
          have hrest := cut?_eq_some hcut
          have hs : '\x7b' :: '\x7b' :: c :: rest =
              '\x7b' :: '\x7b' :: c :: (name ++ ['\x7d', '\x7d']) ++ behind := by
            rw [hrest]
            simp
          refine ⟨_, hs, (isPlaceholder_iff hs.symm).2 ⟨name, rfl, by simpa using hrest, hc, by
            simpa using hline⟩, fun b q e he hq => ?_⟩
          cases b with
          | cons d b => exact .inl (Nat.zero_lt_succ _)
          | nil =>
            refine .inr ⟨rfl, ?_⟩
            rw [List.nil_append, List.nil_append, ← hs] at he
            obtain ⟨name', rfl, hrest', -⟩ := (isPlaceholder_iff he).1 hq
            have := (prefix_of_cut? hcut hrest').length_le
            simp only [List.length_cons, List.length_append]
            omega
      · cases h
  · cases h

end Search

/-! ### Values in placeholders -/

/-- Letters with values in place of the finds among them, one after the other. -/
def lettersFilled : List (Char ⊕ Unit) → List String → List Char
  | [], _ => []
  | .inl c :: letters, values => c :: lettersFilled letters values
  | .inr () :: letters, values => (values.headD "").toList ++ lettersFilled letters values.tail

theorem fillIn_toList (ps : List (Piece Unit)) (values : List String) :
    (fillIn ps values).toList = lettersFilled (Piece.letters ps) values := by
  have hplain (s : List Char) (letters : List (Char ⊕ Unit)) (values : List String) :
      lettersFilled (s.map .inl ++ letters) values = s ++ lettersFilled letters values := by
    induction s with
    | nil => rfl
    | cons c s ih => rw [List.map_cons, List.cons_append, lettersFilled, ih, List.cons_append]
  induction ps generalizing values with
  | nil => rfl
  | cons p ps ih =>
    cases p with
    | plain s =>
      rw [fillIn, String.toList_append, ih]
      exact (hplain s.toList (Piece.letters ps) values).symm
    | hit a =>
      rw [fillIn, String.toList_append, ih]
      rfl

theorem length_hits (ps : List (Piece Unit)) :
    (ps.filter Piece.isHit).length = ((Piece.letters ps).filter Sum.isRight).length := by
  have hplain (s : List Char) :
      (s.map Sum.inl).filter (Sum.isRight (α := Char) (β := Unit)) = [] := by simp
  induction ps with
  | nil => rfl
  | cons p ps ih =>
    cases p with
    | plain s =>
      change _ = ((s.toList.map Sum.inl ++ Piece.letters ps).filter Sum.isRight).length
      rw [List.filter_append, hplain, List.nil_append, ← ih]
      rfl
    | hit a =>
      change _ = ((Sum.inr a :: Piece.letters ps).filter Sum.isRight).length
      rw [List.filter_cons_of_pos rfl, List.filter_cons_of_pos rfl, List.length_cons, ih, List.length_cons]

/-- A text is cut at its placeholders where the search finds them: it finds as many, and values put in
the places that it finds stand in place of the placeholders. -/
theorem exists_template (s : List Char) : ∃ befores last, Template s befores last ∧
    ((Piece.letters (pieces placeholder? s)).filter Sum.isRight).length = befores.length ∧
    ∀ values : List String, values.length = befores.length →
      lettersFilled (Piece.letters (pieces placeholder? s)) values =
        filled befores last (values.map String.toList) := by
  induction h : s.length using Nat.strong_induction_on generalizing s with
  | _ n ih =>
    cases hfind : placeholder? s with
    | some hit =>
      obtain ⟨p, hs, hp⟩ := placeholder?_eq_some hfind
      obtain ⟨befores, last, ht, hcount, hfilled⟩ := ih _ (h ▸ hit.shorter) hit.behind rfl
      rw [letters_of_some hfind]
      refine ⟨[] :: befores, last, ?_, ?_, fun values hv => ?_⟩
      · have htemplate := Template.place hp ht
        rwa [List.nil_append, ← hs] at htemplate
      · rw [List.filter_cons_of_pos rfl, List.length_cons, hcount, List.length_cons]
      · obtain ⟨v, values, rfl⟩ := List.exists_cons_of_length_eq_add_one hv
        rw [lettersFilled, List.tail_cons, hfilled values (by simpa using hv)]
        simp [filled]
    | none =>
      cases s with
      | nil =>
        rw [letters_nil hfind]
        refine ⟨[], [], .plain fun b q e he hq => ?_, rfl, fun values hv => rfl⟩
        obtain ⟨-, he⟩ := List.append_eq_nil_iff.1 he
        exact placeholder?_eq_none hfind he hq
      | cons c s =>
        obtain ⟨befores, last, ht, hcount, hfilled⟩ := ih s.length (by simp [← h]) s rfl
        obtain ⟨befores', last', ht', hlength, hcons⟩ :=
          ht.cons fun q e he => placeholder?_eq_none hfind he
        rw [letters_cons hfind]
        refine ⟨befores', last', ht', ?_, fun values hv => ?_⟩
        · rw [List.filter_cons_of_neg (by simp), hcount, hlength]
        · rw [lettersFilled, hfilled values (by omega), hcons _ (by simp; omega)]

/-- All references have values if each has one. -/
theorem resolveAll?_eq_some_iff {context : Context} {references : List String} {values : List Value} :
    resolveAll? context references = some values ↔
      references.map (resolve? context) = values.map some := by
  unfold resolveAll?
  induction references generalizing values with
  | nil => cases values <;> simp
  | cons r references ih =>
    rw [List.mapM_cons, List.map_cons]
    cases hr : resolve? context r with
    | none => cases values <;> simp
    | some w =>
      cases hrest : references.mapM (resolve? context) with
      | none =>
        cases values with
        | nil => simp
        | cons v values => simp [← ih, hrest]
      | some ws =>
        cases values with
        | nil => simp
        | cons v values => simp [← ih, hrest]

/-- A code block has a value exactly when every reference has one and there are as many references as
placeholders. The value is the block of the code with the texts of these values in place of the
placeholders, in their order, and with every other character kept. -/
theorem value?_codeBlock (context : Context) (code language : String) (references : List String) :
    ∃ befores last, Template code.toList befores last ∧
      (∀ befores' last', Template code.toList befores' last' → befores' = befores ∧ last' = last) ∧
      ∀ v, Query.value? ⟨.codeBlock, code :: language :: references⟩ context = some v ↔
        ∃ values : List Value, references.map (resolve? context) = values.map some ∧
          references.length = befores.length ∧
          v = .string ("\x60\x60\x60" ++ language ++ "\n" ++
            .ofList (filled befores last (values.map fun v => v.inline.toList)) ++ "\n\x60\x60\x60") := by
  obtain ⟨befores, last, ht, hcount, hfilled⟩ := exists_template code.toList
  refine ⟨befores, last, ht, fun _ _ ht' => ht.unique ht', fun v => ?_⟩
  have hvalue : Query.value? ⟨.codeBlock, code :: language :: references⟩ context =
      (resolveAll? context references).bind fun values =>
        if befores.length = values.length then
          some (.string ("\x60\x60\x60" ++ language ++ "\n" ++
            fillIn (pieces placeholder? code.toList) (values.map Value.inline) ++ "\n\x60\x60\x60"))
        else none := by
    rw [← hcount, ← length_hits]
    rfl
  have hfill (values : List Value) (hv : befores.length = values.length) :
      fillIn (pieces placeholder? code.toList) (values.map Value.inline) =
        .ofList (filled befores last (values.map fun v => v.inline.toList)) := by
    rw [← String.toList_inj, fillIn_toList, hfilled _ (by simp [hv]), String.toList_ofList, List.map_map]
    rfl
  rw [hvalue, Option.bind_eq_some_iff]
  constructor
  · rintro ⟨values, hr, hif⟩
    split at hif
    · next hv =>
      rw [resolveAll?_eq_some_iff] at hr
      have hlength := congrArg List.length hr
      rw [List.length_map, List.length_map] at hlength
      cases hif
      exact ⟨values, hr, by omega, by rw [hfill values hv]⟩
    · cases hif
  · rintro ⟨values, hr, hcounts, rfl⟩
    have hlength := congrArg List.length hr
    rw [List.length_map, List.length_map] at hlength
    have hv : befores.length = values.length := by omega
    exact ⟨values, resolveAll?_eq_some_iff.2 hr, by rw [if_pos hv, hfill values hv]⟩

/-- A note with a value that looks like a placeholder. -/
def braceContext : Context :=
  ⟨"n.md", [("n.md", .document [("x", .string "\x7b\x7bb\x7d\x7d")])], [], 0⟩

/-- A placeholder with one brace too many at either end, and braces around nothing. -/
def braceCode : String := "\x7b\x7b\x7da\x7d\x7d\x7d \x7b\x7b\x7d\x7d"

/-- Only the first of them counts, and what is put in is not looked at again. -/
theorem value?_codeBlock_braces : ∃ befores last,
    Template braceCode.toList befores last ∧ befores.length = 1 ∧
    Query.value? ⟨.codeBlock, [braceCode, "py", "x"]⟩ braceContext =
      some (.string "\x60\x60\x60py\n\x7b\x7bb\x7d\x7d\x7d \x7b\x7b\x7d\x7d\n\x60\x60\x60") := by
  have hvalue : Query.value? ⟨.codeBlock, [braceCode, "py", "x"]⟩ braceContext =
      some (.string "\x60\x60\x60py\n\x7b\x7bb\x7d\x7d\x7d \x7b\x7b\x7d\x7d\n\x60\x60\x60") := by
    cbv
  obtain ⟨befores, last, ht, -, hiff⟩ := value?_codeBlock braceContext braceCode "py" ["x"]
  obtain ⟨values, -, hcount, -⟩ := (hiff _).1 hvalue
  exact ⟨befores, last, ht, hcount.symm, hvalue⟩

end LiveNotes
