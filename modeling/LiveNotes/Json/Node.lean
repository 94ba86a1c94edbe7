import LiveNotes.Number.Numeral

/-!
JSON text as a tree. The tree keeps what the text says: numbers by their digits, objects with all
their members, and strings that hold half of a surrogate pair as `brokenText`, since such a string
can be passed over but not read.

* `Node.read?` reads a whole text; blanks around it are allowed and nothing else.
-/

namespace LiveNotes.Json

/-- A number as written: digits before and behind the point, and an exponent. -/
structure NumberText where
  negative : Bool
  whole : List Char
  fraction : Option (List Char)
  exponent : Option (Bool × List Char)
deriving DecidableEq, Repr

/-- A JSON text as a tree. -/
inductive Node where
  | null
  | boolean (b : Bool)
  | number (n : NumberText)
  | text (s : String)
  | brokenText
  | array (items : List Node)
  | object (members : List (String × Node))
  | brokenObject
deriving Inhabited

/-- The characters allowed between tokens. -/
def isSpace (c : Char) : Bool := c == ' ' || c == '\n' || c == '\t' || c == '\r'

/-- The text behind the blanks at its start. -/
def skip (s : List Char) : List Char := s.dropWhile isSpace

/-- The value of a hexadecimal digit. -/
def hexValue? (c : Char) : Option Nat :=
  if c.isDigit then some (c.toNat - 48)
  else if 'a' ≤ c ∧ c ≤ 'f' then some (c.toNat - 87)
  else if 'A' ≤ c ∧ c ≤ 'F' then some (c.toNat - 55)
  else none

/-- The value of four hexadecimal digits. -/
def hexFour? (a b c d : Char) : Option Nat := do
  let a ← hexValue? a
  let b ← hexValue? b
  let c ← hexValue? c
  let d ← hexValue? d
  return ((a * 16 + b) * 16 + c) * 16 + d

/-- The character of an escape of one letter. -/
def unescape? (c : Char) : Option Char :=
  if c = '"' then some '"'
  else if c = '\\' then some '\\'
  else if c = '/' then some '/'
  else if c = 'b' then some '\x08'
  else if c = 'f' then some '\x0c'
  else if c = 'n' then some '\n'
  else if c = 'r' then some '\r'
  else if c = 't' then some '\t'
  else none

/-- The character of two halves of a surrogate pair. -/
def joinHalves (high low : Nat) : Char := Char.ofNat (0x10000 + (high - 0xD800) * 0x400 + (low - 0xDC00))

def isHighHalf (n : Nat) : Bool := 0xD800 ≤ n && n < 0xDC00

def isLowHalf (n : Nat) : Bool := 0xDC00 ≤ n && n < 0xE000

/-- Reads a string up to its closing quote. `done` holds the characters read, last one first, and
`pending` a high half that waits for its low half; `whole` says that every half found its other. -/
def readText (done : List Char) (pending : Option Nat) (whole : Bool) :
    List Char → Option (Option String × List Char)
  | [] => none
  | '"' :: s =>
    some (if whole && pending.isNone then some (.ofList done.reverse) else none, s)
  | '\\' :: 'u' :: a :: b :: c :: d :: s =>
    match hexFour? a b c d with
    | none => none
    | some n =>
      match pending with
      | some high =>
        if isLowHalf n then readText (joinHalves high n :: done) none whole s
        else readText done none false s
      | none =>
        if isHighHalf n then readText done (some n) whole s
        else if isLowHalf n then readText done none false s
        else readText (Char.ofNat n :: done) none whole s
  | '\\' :: c :: s =>
    match unescape? c with
    | none => none
    | some c => readText (c :: done) none (whole && pending.isNone) s
  | c :: s =>
    if c.toNat < 0x20 ∨ c = '\\' then none
    else readText (c :: done) none (whole && pending.isNone) s

/-- The exponent of a number, if one is written; a letter without digits is a fault. -/
def takeExponent? : List Char → Option (Option (Bool × List Char) × List Char)
  | c :: s =>
    if c = 'e' ∨ c = 'E' then
      let (negative, s) := Number.takeSign s
      match s.span Char.isDigit with
      | ([], _) => none
      | (ds, s) => some (some (negative, ds), s)
    else some (none, c :: s)
  | [] => some (none, [])

/-- The fraction of a number, if one is written; a point without digits is a fault. -/
def takeFraction? : List Char → Option (Option (List Char) × List Char)
  | '.' :: s =>
    match s.span Char.isDigit with
    | ([], _) => none
    | (ds, s) => some (some ds, s)
  | s => some (none, s)

/-- The digits before the point: zero alone, or digits that start with another one. -/
def takeWhole? (s : List Char) : Option (List Char × List Char) :=
  match s.span Char.isDigit with
  | ([], _) => none
  | ('0' :: _ :: _, _) => none
  | (ds, s) => some (ds, s)

/-- Reads a number behind its sign. -/
def readNumber? (negative : Bool) (s : List Char) : Option (Node × List Char) := do
  let (whole, s) ← takeWhole? s
  let (fraction, s) ← takeFraction? s
  let (exponent, s) ← takeExponent? s
  return (.number ⟨negative, whole, fraction, exponent⟩, s)

mutual

/-- Reads one value behind blanks. The number bounds the values and members still read. -/
def readNode : Nat → List Char → Option (Node × List Char)
  | 0, _ => none
  | room + 1, s =>
    match skip s with
    | 'n' :: 'u' :: 'l' :: 'l' :: s => some (.null, s)
    | 't' :: 'r' :: 'u' :: 'e' :: s => some (.boolean true, s)
    | 'f' :: 'a' :: 'l' :: 's' :: 'e' :: s => some (.boolean false, s)
    | '"' :: s =>
      match readText [] none true s with
      | none => none
      | some (some t, s) => some (.text t, s)
      | some (none, s) => some (.brokenText, s)
    | '[' :: s =>
      match skip s with
      | ']' :: s => some (.array [], s)
      | s => readItems room [] s
    | '\x7b' :: s =>
      match skip s with
      | '\x7d' :: s => some (.object [], s)
      | s => readMembers room [] true s
    | '-' :: s => readNumber? true s
    | s => readNumber? false s

/-- Reads the items of an array behind those already read, last one first. -/
def readItems (room : Nat) (done : List Node) (s : List Char) : Option (Node × List Char) :=
  match room with
  | 0 => none
  | room + 1 =>
    match readNode room s with
    | none => none
    | some (item, s) =>
      match skip s with
      | ',' :: s => readItems room (item :: done) s
      | ']' :: s => some (.array (item :: done).reverse, s)
      | _ => none

/-- Reads the members of an object behind those already read, last one first; `whole` says that
every name could be read. -/
def readMembers (room : Nat) (done : List (String × Node)) (whole : Bool) (s : List Char) :
    Option (Node × List Char) :=
  match room with
  | 0 => none
  | room + 1 =>
    match skip s with
    | '"' :: s =>
      match readText [] none true s with
      | none => none
      | some (name, s) =>
        match skip s with
        | ':' :: s =>
          match readNode room s with
          | none => none
          | some (node, s) =>
            let done := (name.getD "", node) :: done
            let whole := whole && name.isSome
            match skip s with
            | ',' :: s => readMembers room done whole s
            | '\x7d' :: s =>
              some (if whole then .object done.reverse else .brokenObject, s)
            | _ => none
        | _ => none
    | _ => none

end

/-- Reads a whole text. -/
def Node.read? (text : String) : Option Node :=
  let s := text.toList
  match readNode (s.length + 1) s with
  | some (node, rest) => if (skip rest).isEmpty then some node else none
  | none => none

end LiveNotes.Json
