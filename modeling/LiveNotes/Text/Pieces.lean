/-!
Taking a text apart by a pattern: from left to right, the first place where the pattern is found
counts, and the search goes on behind it.

* `pieces`: the parts of a text, those found and those between them.
-/

namespace LiveNotes.Text

/-- What was found at the start of `s`, and the text behind it. -/
structure Hit (s : List Char) (α : Type) where
  value : α
  behind : List Char
  shorter : behind.length < s.length

/-- A part of a text that was found, or one between such parts. -/
inductive Piece (α : Type) where
  | plain (s : String)
  | hit (a : α)

/-- Whether a part was found. -/
def Piece.isHit {α : Type} : Piece α → Bool
  | .plain _ => false
  | .hit _ => true

/-- A part between others, backwards, in front of pieces; an empty one is left out. -/
def Piece.consPlain {α : Type} (passed : List Char) (pieces : List (Piece α)) : List (Piece α) :=
  if passed.isEmpty then pieces else .plain (.ofList passed.reverse) :: pieces

/-- The parts of a text behind characters already passed, last one first. -/
def piecesFrom {α : Type} (find? : (s : List Char) → Option (Hit s α)) (passed : List Char)
    (s : List Char) : List (Piece α) :=
  match find? s with
  | some hit => Piece.consPlain passed (.hit hit.value :: piecesFrom find? [] hit.behind)
  | none =>
    match s with
    | [] => Piece.consPlain passed []
    | c :: s => piecesFrom find? (c :: passed) s
termination_by s.length
decreasing_by
  · exact hit.shorter
  · exact Nat.lt_succ_self _

/-- The parts of a text. -/
def pieces {α : Type} (find? : (s : List Char) → Option (Hit s α)) (s : List Char) :
    List (Piece α) := piecesFrom find? [] s

end LiveNotes.Text
