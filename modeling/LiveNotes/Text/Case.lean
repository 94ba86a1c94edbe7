import LiveNotes.Text.CaseTable

/-!
Upper and lower case of a text, by the full Unicode mappings. One lowercase mapping looks around
itself: a capital sigma at the end of a word becomes `ς`, any other `σ`.
-/

namespace LiveNotes.Text

/-- The image of a character under tables of runs and of expansions. -/
def mapCase (runs : List CaseRun) (expansions : List (Nat × List Nat)) (c : Char) : List Char :=
  match expansions.lookup c.toNat with
  | some image => image.map Char.ofNat
  | none =>
    match runs.findSome? (·.image? c.toNat) with
    | some n => [Char.ofNat n]
    | none => [c]

/-- The uppercase form of one character. -/
def upperChar (c : Char) : List Char :=
  if c.toNat < 0x80 then [c.toUpper] else mapCase upperRuns upperExpansions c

/-- The lowercase form of one character, seen alone. -/
def lowerChar (c : Char) : List Char :=
  if c.toNat < 0x80 then [c.toLower] else mapCase lowerRuns lowerExpansions c

/-- A character that has case. -/
def isCased (c : Char) : Bool := c.isAlpha || inRanges casedRanges c.toNat

/-- A character that the end of a word is looked for behind, such as an apostrophe or an accent. -/
def isCaseIgnorable (c : Char) : Bool :=
  c == '\x27' || c == '.' || c == ':' || c == '^' || c == '\x60' ||
    inRanges caseIgnorableRanges c.toNat

/-- Whether the first character that counts has case. -/
def casedNext (s : List Char) : Bool :=
  match s.dropWhile isCaseIgnorable with
  | [] => false
  | c :: _ => isCased c

/-- The uppercase form of a text. -/
def upper (s : List Char) : List Char := s.flatMap upperChar

/-- `lower` with the characters passed and the text written so far, both last one first. -/
def lowerFrom (passed done : List Char) : List Char → List Char
  | [] => done.reverse
  | c :: cs =>
    let image :=
      if c == 'Σ' then (if casedNext passed && !casedNext cs then ['ς'] else ['σ'])
      else lowerChar c
    lowerFrom (c :: passed) (image.reverse ++ done) cs

/-- The lowercase form of a text. -/
def lower (s : List Char) : List Char := lowerFrom [] [] s

end LiveNotes.Text
