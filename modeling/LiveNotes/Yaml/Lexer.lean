import LiveNotes.Yaml.Property
import LiveNotes.Yaml.Scalar

/-!
YAML text as tokens. Indentation shows where collections start and end. What a mapping key is shows
only at the colon behind it: the place of a possible key is kept, and when the colon comes the
tokens of a key are put in there. Such a key stands on one line and is not long.

* `Lexer.tokenAt?`: the next token, with those that come with it;
* `tokenize?`: all tokens of a text.
-/

namespace LiveNotes.Yaml

/-- A place where a mapping key may have started: whether one has to, the number of tokens before
it, and its line and column. -/
structure PossibleKey where
  required : Bool
  tokensBefore : Nat
  line : Nat
  column : Nat

/-- A text that is being taken apart: the characters left; the tokens, last one first, and their
number; the possible keys of the innermost brackets and of those around them; the indentation of
the innermost collection and of those around it; and whether a key may start here. -/
structure Lexer where
  cursor : Cursor
  tokens : List Token
  size : Nat
  key : Option PossibleKey
  outerKeys : List (Option PossibleKey)
  indent : Int
  outerIndents : List Int
  keyAllowed : Bool

namespace Lexer

/-- Nothing read yet. -/
def start (text : List Char) : Lexer := ⟨⟨text, 0, 0⟩, [], 0, none, [], -1, [], true⟩

/-- Whether the place is inside brackets or braces. -/
def inFlow (l : Lexer) : Bool := !l.outerKeys.isEmpty

/-- One more token. -/
def emit (l : Lexer) (t : Token) : Lexer := { l with tokens := t :: l.tokens, size := l.size + 1 }

/-- A token is put in behind the first `n` tokens. -/
def putIn (l : Lexer) (n : Nat) (t : Token) : Lexer :=
  let behind := l.size - n
  { l with tokens := l.tokens.take behind ++ t :: l.tokens.drop behind, size := l.size + 1 }

/-- The characters that are left. -/
def withCursor (l : Lexer) (c : Cursor) : Lexer := { l with cursor := c }

/-- Behind `n` characters. -/
def skip (l : Lexer) (n : Nat) : Lexer := l.withCursor (l.cursor.skip n)

/-- Whether a key may start here. -/
def allowKey (l : Lexer) (allowed : Bool) : Lexer := { l with keyAllowed := allowed }

/-! ### Possible keys -/

/-- Whether a key that started there has become too long. -/
def outdated (l : Lexer) (k : PossibleKey) : Bool :=
  k.line < l.cursor.line || k.column + 1024 < l.cursor.column

/-- A possible key, or none if it has become too long; one that is required must not. -/
def current? (l : Lexer) (k : Option PossibleKey) : Option (Option PossibleKey) :=
  match k with
  | none => some none
  | some k => if l.outdated k then (if k.required then none else some none) else some (some k)

/-- Possible keys that have become too long are forgotten. -/
def dropOutdated? (l : Lexer) : Option Lexer := do
  let key ← l.current? l.key
  let outer ← l.outerKeys.mapM l.current?
  return { l with key := key, outerKeys := outer }

/-- The possible key of the innermost brackets is forgotten; one that is required must not be. -/
def forgetKey? (l : Lexer) : Option Lexer :=
  match l.key with
  | some k => if k.required then none else some { l with key := none }
  | none => some l

/-- A key may start here, if keys are allowed. -/
def saveKey? (l : Lexer) : Option Lexer :=
  if l.keyAllowed then do
    let l ← l.forgetKey?
    let required := !l.inFlow && l.indent == l.cursor.column
    return { l with key := some ⟨required, l.size, l.cursor.line, l.cursor.column⟩ }
  else some l

/-! ### Indentation -/

/-- A collection starts at a column, if it is further in than the one around it; its token is put
in behind the first `n` tokens. -/
def indentTo (l : Lexer) (column n : Nat) (t : Token) : Lexer :=
  if !l.inFlow && l.indent < column then
    { l.putIn n t with indent := column, outerIndents := l.indent :: l.outerIndents }
  else l

/-- The collections that are further in than a column end. -/
def closeFrom (l : Lexer) (column : Int) : List Int → Lexer
  | [] => l
  | outer :: rest =>
    if column < l.indent then
      closeFrom { l.emit .blockEnd with indent := outer, outerIndents := rest } column rest
    else l

/-- The collections that are further in than a column end, outside brackets. -/
def dedentTo (l : Lexer) (column : Int) : Lexer :=
  if l.inFlow then l else l.closeFrom column l.outerIndents

/-! ### Gaps -/

/-- Behind blanks, comments and line ends. Tabs belong to them where no key may start; outside
brackets a key may start on each new line. A byte order mark at the start of a line is passed
over. -/
def behindGap (flow comment allowed : Bool) (line column : Nat) : List Char → Bool × Cursor
  | [] => (allowed, ⟨[], line, column⟩)
  | c :: s =>
    if isBreak c then behindGap flow false (allowed || !flow) (line + 1) 0 s
    else if comment || c == '#' then behindGap flow true allowed line (column + 1) s
    else if c == ' ' || (c == '\t' && (flow || !allowed)) || (c == '\uFEFF' && column == 0) then
      behindGap flow false allowed line (column + 1) s
    else (allowed, ⟨c :: s, line, column⟩)

/-- At the next token. -/
def toToken (l : Lexer) : Lexer :=
  let c := l.cursor
  let (allowed, c) := behindGap l.inFlow false l.keyAllowed c.line c.column c.rest
  (l.withCursor c).allowKey allowed

/-! ### Tokens -/

/-- All collections end, and no key is open. -/
def closeAll? (l : Lexer) : Option Lexer := do
  return (← (l.dedentTo (-1)).forgetKey?).allowKey false

/-- The mark of a document. -/
def documentToken? (l : Lexer) (t : Token) : Option Lexer := do
  return ((← l.closeAll?).skip 3).emit t

/-- A directive. -/
def directive? (l : Lexer) : Option Lexer := do
  let l ← l.closeAll?
  let (t, c) ← scanDirective? l.cursor
  return (l.withCursor c).emit t

/-- An opening bracket or brace. -/
def openFlow? (l : Lexer) (t : Token) : Option Lexer := do
  let l ← l.saveKey?
  return (({ l with key := none, outerKeys := l.key :: l.outerKeys }.allowKey true).skip 1).emit t

/-- A closing bracket or brace. -/
def closeFlow? (l : Lexer) (t : Token) : Option Lexer := do
  let l ← l.forgetKey?
  let l := match l.outerKeys with
    | [] => l
    | key :: outer => { l with key := key, outerKeys := outer }
  return ((l.allowKey false).skip 1).emit t

/-- A comma between brackets. -/
def flowEntry? (l : Lexer) : Option Lexer := do
  return (((← l.forgetKey?).allowKey true).skip 1).emit .flowEntry

/-- The sign of an item of a sequence or of a key: outside brackets it may start a collection. -/
def blockSign? (l : Lexer) (collection sign : Token) (allowed : Bool) : Option Lexer :=
  if !l.inFlow && !l.keyAllowed then none
  else do
    let l ← (l.indentTo l.cursor.column l.size collection).forgetKey?
    return ((l.allowKey allowed).skip 1).emit sign

/-- A colon: behind a possible key it makes it one. -/
def valueSign? (l : Lexer) : Option Lexer :=
  match l.key with
  | some k =>
    let l := { l.putIn k.tokensBefore .key with key := none }
    let l := l.indentTo k.column k.tokensBefore .blockMappingStart
    some (((l.allowKey false).skip 1).emit .value)
  | none =>
    if !l.inFlow && !l.keyAllowed then none
    else
      let l := l.indentTo l.cursor.column l.size .blockMappingStart
      some (((l.allowKey !l.inFlow).skip 1).emit .value)

/-- A name behind its sign. -/
def name? (l : Lexer) (token : String → Token) : Option Lexer := do
  let l ← l.saveKey?
  let (name, c) ← scanAnchor? l.cursor.next
  return ((l.withCursor c).allowKey false).emit (token name)

/-- A tag. -/
def tag? (l : Lexer) : Option Lexer := do
  let l ← l.saveKey?
  let (t, c) ← scanTag? l.inFlow l.cursor
  return ((l.withCursor c).allowKey false).emit t

/-- A block of lines. -/
def block? (l : Lexer) (literal : Bool) : Option Lexer := do
  let l ← l.forgetKey?
  let (text, c) ← scanBlock? literal l.indent l.cursor.next
  return ((l.withCursor c).allowKey true).emit (.scalar text false)

/-- A scalar in quotes. -/
def quoted? (l : Lexer) (single : Bool) : Option Lexer := do
  let l ← l.saveKey?
  let c := l.cursor.next
  let (f, c) ← scanQuoted? single .start none c.line c.column c.rest
  return ((l.withCursor c).allowKey false).emit (.scalar f.text false)

/-- A plain scalar; if it ends behind a line end, a key may start there. -/
def plain? (l : Lexer) : Option Lexer := do
  let l ← l.saveKey?
  let c := l.cursor
  let (f, c) ← scanPlain? l.inFlow (l.indent + 1) false .start c.line c.column c.rest
  return ((l.withCursor c).allowKey f.broken).emit (.scalar f.text true)

/-- A character that starts no plain scalar. -/
def isIndicator (c : Char) : Bool := "-?:,[]\x7b\x7d#&*!|>'\"%@\x60".toList.contains c

/-- Whether a plain scalar starts with a character before a text. -/
def startsPlain (flow : Bool) (c : Char) (s : List Char) : Bool :=
  !(isGap c || isIndicator c) || (c == '-' && !(s.head?.any isBlank)) ||
    (!flow && (c == '?' || c == ':') && !gapNext s)

/-- The token that starts with a character before a text. -/
def tokenAt? (l : Lexer) (c : Char) (s : List Char) : Option Lexer :=
  let flow := l.inFlow
  let lineStart : Bool := l.cursor.column == 0
  if lineStart && c == '%' then l.directive?
  else if lineStart && documentMark (c :: s) then
    l.documentToken? (if c = '-' then .documentStart else .documentEnd)
  else if c = '[' then l.openFlow? .flowSequenceStart
  else if c = '\x7b' then l.openFlow? .flowMappingStart
  else if c = ']' then l.closeFlow? .flowSequenceEnd
  else if c = '\x7d' then l.closeFlow? .flowMappingEnd
  else if c = ',' then l.flowEntry?
  else if c == '-' && gapNext s then l.blockSign? .blockSequenceStart .blockEntry true
  else if c == '?' && (flow || gapNext s) then l.blockSign? .blockMappingStart .key !flow
  else if c == ':' && (flow || gapNext s) then l.valueSign?
  else if c = '*' then l.name? .alias
  else if c = '&' then l.name? .anchor
  else if c = '!' then l.tag?
  else if c == '|' && !flow then l.block? true
  else if c == '>' && !flow then l.block? false
  else if c = '\x27' then l.quoted? true
  else if c = '"' then l.quoted? false
  else if startsPlain flow c s then l.plain?
  else none

/-- At the next token, with the collections ended that end before it. -/
def ready? (l : Lexer) : Option Lexer := do
  let l ← l.toToken.dropOutdated?
  return l.dedentTo l.cursor.column

/-- All tokens, in at most `room` steps. -/
def run? (room : Nat) (l : Lexer) : Option Lexer :=
  match room with
  | 0 => none
  | room + 1 => do
    let l ← l.ready?
    match l.cursor.rest with
    | [] => l.closeAll?
    | c :: s => run? room (← l.tokenAt? c s)

end Lexer

/-- The tokens of a text. Each step reads a character, so there are no more steps than these. -/
def tokenize? (text : List Char) : Option (List Token) := do
  let l ← (Lexer.start (← readable? text)).run? (text.length + 1)
  return l.tokens.reverse

end LiveNotes.Yaml
