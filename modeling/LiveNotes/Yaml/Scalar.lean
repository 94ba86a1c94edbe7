import LiveNotes.Yaml.Cursor
import LiveNotes.Json.Node

/-!
Scalars as they are written: plain, in single or double quotes, and as blocks of lines. Line ends
inside a scalar are folded: one becomes a space, and of several the first one is dropped.

* `scanPlain?`, `scanQuoted?`, `scanBlock?`: the text of a scalar and the cursor behind it.
-/

namespace LiveNotes.Yaml

/-! ### Folding -/

/-- A scalar that is being read: its text so far, and what the gap behind it consists of. All
characters are kept last one first. -/
structure Fold where
  done : List Char
  blanks : List Char
  broken : Bool
  firstBreak : Option Char
  moreBreaks : List Char

namespace Fold

/-- Nothing read. -/
def start : Fold := ⟨[], [], false, none, []⟩

/-- A blank in the gap; behind a line end it does not count. -/
def blank (f : Fold) (c : Char) : Fold :=
  if f.broken then f else { f with blanks := c :: f.blanks }

/-- A line end in the gap. -/
def lineEnd (f : Fold) (c : Char) : Fold :=
  if f.broken then { f with moreBreaks := c :: f.moreBreaks }
  else { f with blanks := [], broken := true, firstBreak := some c }

/-- The text of a gap, last character first. -/
def gap (f : Fold) : List Char :=
  if f.broken then
    match f.firstBreak with
    | some '\n' => if f.moreBreaks.isEmpty then [' '] else f.moreBreaks
    | some c => f.moreBreaks ++ [c]
    | none => f.moreBreaks
  else f.blanks

/-- The gap is over. -/
def join (f : Fold) : Fold := ⟨f.gap ++ f.done, [], false, none, []⟩

/-- A character behind the gap. -/
def push (f : Fold) (c : Char) : Fold := ⟨c :: (f.gap ++ f.done), [], false, none, []⟩

/-- A line end that is not part of the text: the gap starts anew behind it. -/
def escapeBreak (f : Fold) : Fold := ⟨f.gap ++ f.done, [], true, none, []⟩

/-- The text. -/
def text (f : Fold) : String := .ofList f.done.reverse

end Fold

/-! ### Plain scalars -/

/-- Whether a plain scalar ends before the text, which starts with no gap. -/
def endsPlain (flow : Bool) (s : List Char) : Bool :=
  match s with
  | [] => true
  | ':' :: s => gapNext s
  | c :: _ => flow && isFlowIndicator c

/-- Whether a colon is followed by what must not follow it inside brackets and braces. -/
def badColon (flow : Bool) (s : List Char) : Bool :=
  match s with
  | ':' :: c :: _ => flow && (isFlowIndicator c || c == '?')
  | _ => false

/-- Whether a plain scalar ends behind a gap. -/
def endsBehindGap (flow : Bool) (indent : Int) (column : Nat) (s : List Char) : Bool :=
  (!flow && column < indent) || (column == 0 && documentMark s) || s.head? == some '#'

/-- The rest of a plain scalar, with the cursor behind it and the gap read there. Lines of the
scalar start at column `indent` at least; `fresh` says that the scalar is in a gap. -/
def scanPlain? (flow : Bool) (indent : Int) (fresh : Bool) (f : Fold) (line column : Nat) :
    List Char → Option (Fold × Cursor)
  | [] => some (f, ⟨[], line, column⟩)
  | c :: s =>
    if isBreak c then scanPlain? flow indent true (f.lineEnd c) (line + 1) 0 s
    else if isBlank c then
      if f.broken && column < indent && c == '\t' then none
      else scanPlain? flow indent true (f.blank c) line (column + 1) s
    else if fresh && endsBehindGap flow indent column (c :: s) then
      some (f, ⟨c :: s, line, column⟩)
    else if badColon flow (c :: s) then none
    else if endsPlain flow (c :: s) then some (f, ⟨c :: s, line, column⟩)
    else scanPlain? flow indent false (f.push c) line (column + 1) s

/-! ### Quoted scalars -/

/-- The character of an escape of one letter. -/
def unescape? (c : Char) : Option Char :=
  match c with
  | '0' => some '\x00'
  | 'a' => some '\x07'
  | 'b' => some '\x08'
  | 't' | '\t' => some '\t'
  | 'n' => some '\n'
  | 'v' => some '\x0b'
  | 'f' => some '\x0c'
  | 'r' => some '\r'
  | 'e' => some '\x1b'
  | ' ' => some ' '
  | '"' => some '"'
  | '/' => some '/'
  | '\\' => some '\\'
  | 'N' => some '\x85'
  | '_' => some '\xa0'
  | 'L' => some '\u2028'
  | 'P' => some '\u2029'
  | _ => none

/-- The number of hexadecimal digits behind the letter of an escape. -/
def escapeDigits? (c : Char) : Option Nat :=
  match c with
  | 'x' => some 2
  | 'u' => some 4
  | 'U' => some 8
  | _ => none

/-- The character of a code point. -/
def character? (n : Nat) : Option Char := if n.isValidChar then some (.ofNat n) else none

/-- What is left of an escape whose digits are still to be read. -/
structure PendingEscape where
  missing : Nat
  value : Nat

/-- The rest of a quoted scalar behind its opening quote, with the cursor behind the closing one.
`escape` is an escape that is being read: only its backslash, or a number with digits missing. -/
def scanQuoted? (single : Bool) (f : Fold) (escape : Option (Option PendingEscape))
    (line column : Nat) : List Char → Option (Fold × Cursor)
  | [] => none
  | c :: s =>
    match escape with
    | some (some ⟨missing, value⟩) =>
      match Json.hexValue? c with
      | none => none
      | some d =>
        let value := value * 16 + d
        if missing = 1 then
          match character? value with
          | some c => scanQuoted? single (f.push c) none line (column + 1) s
          | none => none
        else scanQuoted? single f (some (some ⟨missing - 1, value⟩)) line (column + 1) s
    | some none =>
      if isBreak c then scanQuoted? single f.escapeBreak none (line + 1) 0 s
      else
        match unescape? c, escapeDigits? c with
        | some c, _ => scanQuoted? single (f.push c) none line (column + 1) s
        | none, some n => scanQuoted? single f (some (some ⟨n, 0⟩)) line (column + 1) s
        | none, none => none
    | none =>
      if isBreak c then scanQuoted? single (f.lineEnd c) none (line + 1) 0 s
      else if isBlank c then scanQuoted? single (f.blank c) none line (column + 1) s
      else if column = 0 ∧ documentMark (c :: s) then none
      else if single then
        if c = '\x27' then
          match s with
          | '\x27' :: s => scanQuoted? single (f.push '\x27') none line (column + 2) s
          | s => some (f.join, ⟨s, line, column + 1⟩)
        else scanQuoted? single (f.push c) none line (column + 1) s
      else if c = '"' then some (f.join, ⟨s, line, column + 1⟩)
      else if c = '\\' then scanQuoted? single f.join (some none) line (column + 1) s
      else scanQuoted? single (f.push c) none line (column + 1) s

/-! ### Blocks of lines -/

/-- What the line ends behind a block become. -/
inductive Chomping where
  | strip | clip | keep
deriving DecidableEq, Repr

/-- The heading of a block: its chomping, and its indentation if it is given. -/
structure BlockHead where
  chomping : Chomping
  indent : Option Nat

/-- The chomping that a character asks for. -/
def chomping? (c : Char) : Option Chomping :=
  if c = '+' then some .keep else if c = '-' then some .strip else none

/-- An indentation written behind the sign of a block; zero is a fault. -/
def takeIndent? (c : Cursor) : Option (Option Nat × Cursor) :=
  match c.rest with
  | d :: _ =>
    if d = '0' then none
    else if d.isDigit then some (some (d.toNat - 48), c.next) else some (none, c)
  | [] => some (none, c)

/-- A chomping written behind the sign of a block. -/
def takeChomping (c : Cursor) : Option Chomping × Cursor :=
  match c.rest.head?.bind chomping? with
  | some chomping => (some chomping, c.next)
  | none => (none, c)

/-- The heading of a block behind its sign: chomping and indentation in either order. -/
def takeHead? (c : Cursor) : Option (BlockHead × Cursor) := do
  let (before, c) := takeChomping c
  let (indent, c) ← takeIndent? c
  match before, indent with
  | some chomping, _ => return (⟨chomping, indent⟩, c)
  | none, some _ =>
    let (behind, c) := takeChomping c
    return (⟨behind.getD .clip, indent⟩, c)
  | none, none => return (⟨.clip, none⟩, c)

/-- The empty lines before a line of a block: the widest indentation and the line ends, last one
first, and the cursor at the line. Without an indentation all spaces belong to it. -/
def scanEmptyLines? (indent : Option Nat) (most : Nat) (breaks : List Char) (line column : Nat) :
    List Char → Option (Nat × List Char × Cursor)
  | [] => some (max most column, breaks, ⟨[], line, column⟩)
  | c :: s =>
    let inside : Bool := indent.all fun n => column < n
    if c == ' ' && inside then scanEmptyLines? indent most breaks line (column + 1) s
    else if c == '\t' && inside then none
    else if isBreak c then scanEmptyLines? indent (max most column) (c :: breaks) (line + 1) 0 s
    else some (max most column, breaks, ⟨c :: s, line, column⟩)

/-- A block that is being read. All characters are kept last one first. -/
structure Block where
  done : List Char
  lineEnd : Option Char
  emptyLines : List Char
  indented : Bool

namespace Block

/-- The block with the line end before a line that starts with `c`; between two lines that are not
indented it is folded. -/
def startLine (b : Block) (literal : Bool) (c : Char) : Block :=
  let breaks :=
    if !literal && b.lineEnd == some '\n' && !b.indented && !isBlank c then
      if b.emptyLines.isEmpty then [' '] else []
    else b.lineEnd.toList
  ⟨b.emptyLines ++ breaks ++ b.done, none, [], isBlank c⟩

/-- The text, with the line ends behind it as the chomping says. -/
def text (b : Block) (chomping : Chomping) : String :=
  .ofList (match chomping with
    | .strip => b.done
    | .clip => b.lineEnd.toList ++ b.done
    | .keep => b.emptyLines ++ b.lineEnd.toList ++ b.done).reverse

end Block

/-- The lines of a block, each indented by `indent`, and the cursor behind them; `inLine` says that
a line is being read. -/
def scanLines? (literal : Bool) (indent : Nat) (inLine : Bool) (b : Block) (line column : Nat) :
    List Char → Option (Block × Cursor)
  | [] => some (b, ⟨[], line, column⟩)
  | c :: s =>
    if isBreak c then
      let b := if inLine then { b with lineEnd := some c } else { b with emptyLines := c :: b.emptyLines }
      scanLines? literal indent false b (line + 1) 0 s
    else if inLine then
      scanLines? literal indent true { b with done := c :: b.done } line (column + 1) s
    else if column < indent ∧ c = ' ' then scanLines? literal indent false b line (column + 1) s
    else if column < indent ∧ c = '\t' then none
    else if column = indent then
      let b := b.startLine literal c
      scanLines? literal indent true { b with done := c :: b.done } line (column + 1) s
    else some (b, ⟨c :: s, line, column⟩)

/-- The text of a block behind its sign, inside a collection that is indented by `parent`. -/
def scanBlock? (literal : Bool) (parent : Int) (c : Cursor) : Option (String × Cursor) := do
  let (head, c) ← takeHead? c
  let c ← c.endLine?
  let given := head.indent.map fun n => (max parent 0).toNat + n
  let (most, breaks, c) ← scanEmptyLines? given 0 [] c.line c.column c.rest
  let indent := given.getD (max (max most 1) (parent + 1).toNat)
  let (b, c) ← scanLines? literal indent false ⟨[], none, breaks, false⟩ c.line c.column c.rest
  return (b.text head.chomping, c)

end LiveNotes.Yaml
