import LiveNotes.Yaml.Reader
import LiveNotes.Text.Search

/-!
Front matter: a block of YAML between two lines of three dashes at the start of a document.

* `frontMatter?`: the block of a document;
* `readProperties?`: the properties in it.
-/

namespace LiveNotes

/-- The first line of a text with its line end, and the text behind it. -/
def splitLine : List Char → List Char × List Char
  | [] => ([], [])
  | '\n' :: s => (['\n'], s)
  | c :: s =>
    let (line, rest) := splitLine s
    (c :: line, rest)

/-- The text behind a line of three dashes that starts a document; a byte order mark may stand
before it. -/
def behindOpening? (text : List Char) : Option (List Char) :=
  let s := match text with
    | '\uFEFF' :: s => s
    | s => s
  match s with
  | '-' :: '-' :: '-' :: '\r' :: '\n' :: s => some s
  | '-' :: '-' :: '-' :: '\n' :: s => some s
  | _ => none

/-- Whether a line has three dashes, and only blanks behind them. -/
def closesBlock (line : List Char) : Bool := Text.trimEnd line == ['-', '-', '-']

theorem splitLine_shorter {s : List Char} (h : s ≠ []) : (splitLine s).2.length < s.length := by
  induction s with
  | nil => exact absurd rfl h
  | cons c s ih =>
    unfold splitLine
    split
    · contradiction
    · rename_i t ht
      injection ht with _ hs
      simp [hs]
    · rename_i d t _ ht
      injection ht with _ hs
      subst hs
      by_cases hs : s = []
      · subst hs; simp [splitLine]
      · have := ih hs
        simp only [List.length_cons]
        omega

/-- The lines before the first one that closes the block, behind lines already passed, last
character first. -/
def linesToClosing? (passed : List Char) (s : List Char) : Option (List Char) :=
  if _h : s = [] then none
  else
    let line := (splitLine s).1
    if closesBlock line then some passed.reverse
    else linesToClosing? (line.reverse ++ passed) (splitLine s).2
termination_by s.length
decreasing_by exact splitLine_shorter _h

/-- The block of a document. -/
def frontMatter? (text : String) : Option String :=
  ((behindOpening? text.toList).bind (linesToClosing? [])).map String.ofList

/-- The properties of a document: none without a block, or when the block is no mapping. A block
that is no YAML is a fault. -/
def readProperties? (text : String) : Option Properties :=
  match frontMatter? text with
  | none => some []
  | some block =>
    if Text.allBlank block.toList then some []
    else
      (Yaml.readDatum? block.toList).map fun d =>
        match d.toValue with
        | .object entries => entries
        | _ => []

end LiveNotes
