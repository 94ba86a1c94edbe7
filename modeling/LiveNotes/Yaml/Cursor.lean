/-!
YAML text as a scanner sees it: line ends are one character, and the place of the next character is
known by its line and column.

* `readable?`: the characters of a text with its line ends made alike, if all are allowed;
* `Cursor`: the characters not yet read, with the place of the first one.
-/

namespace LiveNotes.Yaml

/-- A character that may stand in YAML text. -/
def isAllowed (c : Char) : Bool :=
  let n := c.toNat
  n == 0x09 || n == 0x0A || n == 0x0D || (0x20 ≤ n && n ≤ 0x7E) || n == 0x85 ||
    (0xA0 ≤ n && n ≤ 0xD7FF) || (0xE000 ≤ n && n ≤ 0xFFFD) || 0x10000 ≤ n

/-- A text with a newline for each carriage return, pair of carriage return and newline, and next
line character. -/
def unifyBreaks : List Char → List Char
  | [] => []
  | '\r' :: '\n' :: s => '\n' :: unifyBreaks s
  | c :: s => (if c = '\r' ∨ c = '\x85' then '\n' else c) :: unifyBreaks s

/-- The characters of a text, if all are allowed. -/
def readable? (text : List Char) : Option (List Char) :=
  if text.all isAllowed then some (unifyBreaks text) else none

/-- A space or a tab. -/
def isBlank (c : Char) : Bool := c == ' ' || c == '\t'

/-- A line end. -/
def isBreak (c : Char) : Bool := c == '\n' || c == '\u2028' || c == '\u2029'

/-- A space, a tab or a line end. -/
def isGap (c : Char) : Bool := isBlank c || isBreak c

/-- A character of an anchor or of the name of a directive. -/
def isWord (c : Char) : Bool := c.isAlphanum || c == '_' || c == '-'

/-- A bracket, a brace or a comma: what means something inside brackets and braces. -/
def isFlowIndicator (c : Char) : Bool :=
  c == ',' || c == '[' || c == ']' || c == '\x7b' || c == '\x7d'

/-- Whether a text starts with a gap or is at its end. -/
def gapNext (s : List Char) : Bool :=
  match s with
  | [] => true
  | c :: _ => isGap c

/-- Whether a line starts with the mark of the start or the end of a document. -/
def documentMark (s : List Char) : Bool :=
  match s with
  | '-' :: '-' :: '-' :: s => gapNext s
  | '.' :: '.' :: '.' :: s => gapNext s
  | _ => false

/-- The characters not yet read, with the line and column of the first one. -/
structure Cursor where
  rest : List Char
  line : Nat
  column : Nat

namespace Cursor

/-- Behind one character. -/
def next (c : Cursor) : Cursor :=
  match c.rest with
  | [] => c
  | d :: s => if isBreak d then ⟨s, c.line + 1, 0⟩ else ⟨s, c.line, c.column + 1⟩

/-- Behind some characters. -/
def skip (c : Cursor) : Nat → Cursor
  | 0 => c
  | n + 1 => c.next.skip n

/-- The characters at the start that have a property, none of them a line end, and the cursor
behind them. -/
def takeWhile (c : Cursor) (p : Char → Bool) : List Char × Cursor :=
  let taken := c.rest.takeWhile p
  (taken, ⟨c.rest.dropWhile p, c.line, c.column + taken.length⟩)

/-- Behind blanks and a comment, up to the line end. -/
def behindComment (c : Cursor) : Cursor :=
  let c := (c.takeWhile isBlank).2
  match c.rest with
  | '#' :: _ => (c.takeWhile fun d => !isBreak d).2
  | _ => c

/-- Behind the rest of a line that holds nothing but blanks and a comment. -/
def endLine? (c : Cursor) : Option Cursor :=
  let c := c.behindComment
  match c.rest with
  | [] => some c
  | d :: _ => if isBreak d then some c.next else none

end Cursor

end LiveNotes.Yaml
