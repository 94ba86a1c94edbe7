import LiveNotes.Yaml.Cursor
import LiveNotes.Yaml.Token
import LiveNotes.Json.Node

/-!
Anchors, tags and directives.

* `scanAnchor?`: the name behind the sign of an anchor or an alias;
* `scanTag?`: a tag, as a handle and a suffix;
* `scanDirective?`: a directive at the start of a line.
-/

namespace LiveNotes.Yaml

/-! ### Anchors -/

/-- Whether a name may end before a text. -/
def endsName (s : List Char) : Bool :=
  match s with
  | [] => true
  | c :: _ =>
    isGap c || c == '?' || c == ':' || c == ',' || c == ']' || c == '\x7d' || c == '%' ||
      c == '@' || c == '\x60'

/-- The name behind the sign of an anchor or an alias. -/
def scanAnchor? (c : Cursor) : Option (String × Cursor) :=
  let (name, c) := c.takeWhile isWord
  if name.isEmpty || !endsName c.rest then none else some (.ofList name, c)

/-! ### Addresses in tags -/

/-- A character that stands for itself in an address; between angle brackets there are more. -/
def isAddressChar (verbatim : Bool) (c : Char) : Bool :=
  isWord c || ";/?:@&=+$.!~*'()".toList.contains c ||
    (verbatim && (c == ',' || c == '[' || c == ']'))

/-- How many octets follow the first one of a character, and the bits that it holds. -/
def leadingOctet? (n : Nat) : Option (Nat × Nat) :=
  if n < 0x80 then some (0, n)
  else if n < 0xC0 then none
  else if n < 0xE0 then some (1, n - 0xC0)
  else if n < 0xF0 then some (2, n - 0xE0)
  else if n < 0xF8 then some (3, n - 0xF0)
  else none

/-- The character of a code point, or a mark in its place if there is none. -/
def characterOr (n : Nat) : Char := if n.isValidChar then .ofNat n else '\uFFFD'

/-- The address at the start of a text, behind characters already read, last one first. `pending` is
the number of octets missing from an escaped character, and its bits so far. -/
def takeAddress? (verbatim : Bool) (pending : Option (Nat × Nat)) (done : List Char) :
    List Char → Option (List Char × List Char)
  | [] => if pending.isSome then none else some (done.reverse, [])
  | c :: s =>
    if c = '%' then
      match s with
      | a :: b :: s =>
        match Json.hexValue? a, Json.hexValue? b, pending with
        | some x, some y, none =>
          match leadingOctet? (x * 16 + y) with
          | none => none
          | some (0, bits) => takeAddress? verbatim none (characterOr bits :: done) s
          | some (missing, bits) => takeAddress? verbatim (some (missing, bits)) done s
        | some x, some y, some (missing, bits) =>
          if x / 4 = 2 then
            let bits := bits * 64 + (x % 4) * 16 + y
            if missing = 1 then takeAddress? verbatim none (characterOr bits :: done) s
            else takeAddress? verbatim (some (missing - 1, bits)) done s
          else none
        | _, _, _ => none
      | _ => none
    else if pending.isSome then none
    else if isAddressChar verbatim c then takeAddress? verbatim none (c :: done) s
    else some (done.reverse, c :: s)

/-- The cursor with fewer characters left on its line. -/
def Cursor.upTo (c : Cursor) (rest : List Char) : Cursor :=
  ⟨rest, c.line, c.column + (c.rest.length - rest.length)⟩

/-! ### Tags -/

/-- The handle and the suffix of a tag at the start of a text, and the text behind it. -/
def takeTag? (s : List Char) : Option (List Char × List Char × List Char) :=
  match s with
  | '!' :: '<' :: s =>
    match takeAddress? true none [] s with
    | some (address, '>' :: s) => if address.isEmpty then none else some ([], address, s)
    | _ => none
  | '!' :: s =>
    let word := s.takeWhile isWord
    match s.dropWhile isWord with
    | '!' :: s =>
      match takeAddress? false none [] s with
      | some (suffix, s) => if suffix.isEmpty then none else some ('!' :: word ++ ['!'], suffix, s)
      | none => none
    | s =>
      match takeAddress? false none [] s with
      | some (more, s) =>
        if word.isEmpty && more.isEmpty then some ([], ['!'], s) else some (['!'], word ++ more, s)
      | none => none
  | _ => none

/-- A tag, with the cursor behind it; a gap has to follow, or a comma inside brackets. -/
def scanTag? (flow : Bool) (c : Cursor) : Option (Token × Cursor) :=
  match takeTag? c.rest with
  | none => none
  | some (handle, suffix, s) =>
    if gapNext s || (flow && s.head? == some ',') then
      some (.tag (.ofList handle) (.ofList suffix), c.upTo s)
    else none

/-! ### Directives -/

/-- A number of a version, and the text behind it. -/
def takeNumber? (s : List Char) : Option (Nat × List Char) :=
  let ds := s.takeWhile Char.isDigit
  if ds.isEmpty || 9 < ds.length then none else some (Nat.ofDigitChars 10 ds 0, s.dropWhile Char.isDigit)

/-- The version behind the name of its directive. -/
def takeVersion? (s : List Char) : Option (Token × List Char) := do
  let (major, s) ← takeNumber? (s.dropWhile isBlank)
  match s with
  | '.' :: s =>
    let (minor, s) ← takeNumber? s
    return (.versionDirective major minor, s)
  | _ => none

/-- A handle of tags, and the text behind it. -/
def takeHandle? (s : List Char) : Option (List Char × List Char) :=
  match s with
  | '!' :: s =>
    let word := s.takeWhile isWord
    match s.dropWhile isWord with
    | '!' :: s => some ('!' :: word ++ ['!'], s)
    | s => if word.isEmpty then some (['!'], s) else none
  | _ => none

/-- A handle and the start of the tags that it stands for, behind the name of the directive. -/
def takeTagRule? (s : List Char) : Option (Token × List Char) := do
  let (handle, s) ← takeHandle? (s.dropWhile isBlank)
  if !(s.head?.any isBlank) then none
  else
    let (lead, s) ← takeAddress? true none [] (s.dropWhile isBlank)
    if lead.isEmpty || !gapNext s then none
    else return (.tagDirective (.ofList handle) (.ofList lead), s)

/-- A directive, with the cursor on the next line. -/
def scanDirective? (c : Cursor) : Option (Token × Cursor) := do
  let (name, c) := c.next.takeWhile isWord
  if !gapNext c.rest then none
  else
    let (token, s) ←
      if name = "YAML".toList then takeVersion? c.rest
      else if name = "TAG".toList then takeTagRule? c.rest
      else none
    let c ← (c.upTo s).endLine?
    return (token, c)

end LiveNotes.Yaml
