import LiveNotes.Text.Pieces

/-!
A text taken apart by a pattern: what is found, and the text with other words for it, one step of the
search at a time.

* `found`, `substitute`: the finds in order, and the text with something put in their place;
* `Piece.letters`: pieces spelled out, from which both can be read; `letters_of_some`, `letters_cons`;
* `found_of_some`, `found_cons`, `substitute_of_some`, `substitute_cons`: one find, or one character.
-/

namespace LiveNotes.Text

variable {α : Type} {find? : (s : List Char) → Option (Hit s α)} {f : α → List Char} {c : Char}
  {s : List Char}

/-- The finds among pieces. -/
def Piece.finds (pieces : List (Piece α)) : List α :=
  pieces.filterMap fun
    | .plain _ => none
    | .hit a => some a

/-- Pieces as a text, with other words for what was found. -/
def Piece.substituted (f : α → List Char) (pieces : List (Piece α)) : List Char :=
  pieces.flatMap fun
    | .plain s => s.toList
    | .hit a => f a

/-- What is found in a text, in order. -/
def found (find? : (s : List Char) → Option (Hit s α)) (s : List Char) : List α :=
  Piece.finds (pieces find? s)

/-- A text with other words for what is found in it. -/
def substitute (find? : (s : List Char) → Option (Hit s α)) (f : α → List Char) (s : List Char) :
    List Char :=
  Piece.substituted f (pieces find? s)

/-- Pieces spelled out: the characters between the finds, and the finds. -/
def Piece.letters (pieces : List (Piece α)) : List (Char ⊕ α) :=
  pieces.flatMap fun
    | .plain s => s.toList.map .inl
    | .hit a => [.inr a]

theorem finds_eq_letters (ps : List (Piece α)) :
    Piece.finds ps = (Piece.letters ps).filterMap Sum.getRight? := by
  induction ps with
  | nil => rfl
  | cons p ps ih =>
    cases p with
    | plain s =>
      have hplain : (s.toList.map Sum.inl).filterMap (Sum.getRight? (α := Char) (β := α)) = [] := by simp
      simpa [Piece.finds, Piece.letters, hplain] using ih
    | hit a => simpa [Piece.finds, Piece.letters] using ih

theorem substituted_eq_letters (ps : List (Piece α)) :
    Piece.substituted f ps = (Piece.letters ps).flatMap (Sum.elim (fun c => [c]) f) := by
  induction ps with
  | nil => rfl
  | cons p ps ih =>
    cases p with
    | plain s => simpa [Piece.substituted, Piece.letters, List.flatMap_map] using ih
    | hit a => simpa [Piece.substituted, Piece.letters] using ih

theorem letters_consPlain (passed : List Char) (ps : List (Piece α)) :
    Piece.letters (Piece.consPlain passed ps) = passed.reverse.map .inl ++ Piece.letters ps := by
  unfold Piece.consPlain
  split
  · next h => simp [List.isEmpty_iff.1 h]
  · simp [Piece.letters]

/-- The characters already passed stand in front of the rest, and change nothing in it. -/
theorem letters_piecesFrom (passed s : List Char) :
    Piece.letters (piecesFrom find? passed s) =
      passed.reverse.map .inl ++ Piece.letters (pieces find? s) := by
  unfold pieces
  induction s generalizing passed with
  | nil =>
    rw [piecesFrom, piecesFrom]
    cases find? [] <;> simp [letters_consPlain]
  | cons c s ih =>
    rw [piecesFrom, piecesFrom]
    cases find? (c :: s) with
    | some hit => simp [letters_consPlain]
    | none =>
      dsimp only
      rw [ih (c :: passed), ih [c]]
      simp

theorem letters_nil (h : find? [] = none) : Piece.letters (pieces find? []) = [] := by
  rw [pieces, piecesFrom, h]
  exact letters_consPlain [] []

theorem letters_of_some {hit : Hit s α} (h : find? s = some hit) :
    Piece.letters (pieces find? s) = .inr hit.value :: Piece.letters (pieces find? hit.behind) := by
  rw [pieces, piecesFrom.eq_def, h]
  exact letters_consPlain [] _

theorem letters_cons (h : find? (c :: s) = none) :
    Piece.letters (pieces find? (c :: s)) = .inl c :: Piece.letters (pieces find? s) := by
  rw [pieces, piecesFrom, h]
  exact letters_piecesFrom [c] s

theorem found_nil (h : find? [] = none) : found find? [] = [] := by
  rw [found, finds_eq_letters, letters_nil h]
  rfl

theorem substitute_nil (h : find? [] = none) : substitute find? f [] = [] := by
  rw [substitute, substituted_eq_letters, letters_nil h]
  rfl

theorem found_of_some {hit : Hit s α} (h : find? s = some hit) :
    found find? s = hit.value :: found find? hit.behind := by
  rw [found, finds_eq_letters, letters_of_some h, found, finds_eq_letters]
  rfl

theorem substitute_of_some {hit : Hit s α} (h : find? s = some hit) :
    substitute find? f s = f hit.value ++ substitute find? f hit.behind := by
  rw [substitute, substituted_eq_letters, letters_of_some h, substitute, substituted_eq_letters]
  rfl

theorem found_cons (h : find? (c :: s) = none) : found find? (c :: s) = found find? s := by
  rw [found, finds_eq_letters, letters_cons h, found, finds_eq_letters]
  rfl

theorem substitute_cons (h : find? (c :: s) = none) :
    substitute find? f (c :: s) = c :: substitute find? f s := by
  rw [substitute, substituted_eq_letters, letters_cons h, substitute, substituted_eq_letters]
  rfl

end LiveNotes.Text
