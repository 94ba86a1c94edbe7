import LiveNotes.Script.Token
import LiveNotes.Number.Numeral
import LiveNotes.Text.Blank
import LiveNotes.Text.Letter
import LiveNotes.Text.Search

/-!
From text to tokens. Blanks and comments between tokens are passed over; every token carries the
number of characters before it.

* `skipGap`: the text behind blanks and comments;
* `next?`: the token at the start of a text, which takes at least one character (`next?_shorter`);
* `tokenize`: all tokens of a text, the last one `eof`.
-/

namespace LiveNotes.Script

open Number

/-- What is wrong with a text that has no tokens; positions count characters from zero. -/
inductive LexError where
  | unexpectedChar (c : Char) (position : Nat)
  | unterminatedString (position : Nat)
  | invalidEscape (c : Char) (position : Nat)
  | invalidNumber (text : String) (position : Nat)
deriving DecidableEq, Repr

/-- The message of an error. -/
def LexError.message : LexError → String
  | .unexpectedChar c p => s!"unexpected character '{c}' at position {p}"
  | .unterminatedString p => s!"unterminated string starting at position {p}"
  | .invalidEscape c p => s!"invalid escape sequence '\\{c}' at position {p}"
  | .invalidNumber t p => s!"invalid number '{t}' at position {p}"

/-- A text with the number of characters before it. -/
structure Source where
  position : Nat
  rest : List Char
deriving Repr

/-- Where in the gap between two tokens a character stands: among blanks, on the second character of
a comment mark, inside a line comment, inside a block comment, there behind a star. -/
inductive Gap where
  | blank | lineMark | blockMark | line | block | blockStar
deriving DecidableEq, Repr

/-- Where the character behind `c` stands; none if `c` starts a token. A line comment ends before
the line end, a block comment behind its end mark or with the text. -/
def Gap.next? (gap : Gap) (c : Char) (s : List Char) : Option Gap :=
  match gap with
  | .blank =>
    if Text.isBlank c then some .blank
    else if c = '/' ∧ s.head? = some '/' then some .lineMark
    else if c = '/' ∧ s.head? = some '*' then some .blockMark
    else none
  | .lineMark => some .line
  | .blockMark => some .block
  | .line => some (if c = '\n' then .blank else .line)
  | .block => some (if c = '*' then .blockStar else .block)
  | .blockStar => some (if c = '/' then .blank else if c = '*' then .blockStar else .block)

/-- The text behind blanks and comments. -/
def skipGap (gap : Gap) (position : Nat) : List Char → Source
  | [] => ⟨position, []⟩
  | c :: s =>
    match gap.next? c s with
    | none => ⟨position, c :: s⟩
    | some gap => skipGap gap (position + 1) s

/-- A character that a name may start with. -/
def isNameStart (c : Char) : Bool := Text.isLetter c || c == '_' || c == '$'

/-- A character that a name may go on with. -/
def isNamePart (c : Char) : Bool :=
  Text.isLetter c || Text.isNumeral c || c == '_' || c == '$'

theorem isNamePart_of_isNameStart {c : Char} (h : isNameStart c = true) : isNamePart c = true := by
  simp only [isNameStart, Bool.or_eq_true] at h
  simp only [isNamePart, Bool.or_eq_true]
  rcases h with (h | h) | h <;> simp [h]

/-- The character that an escape in a string stands for. -/
def unescape? (c : Char) : Option Char :=
  if c = 'n' then some '\n'
  else if c = 't' then some '\t'
  else if c = 'r' then some '\r'
  else if c = '0' then some '\x00'
  else if c = '"' ∨ c = '\'' ∨ c = '\\' ∨ c = '\x60' then some c
  else none

/-- Reads a string behind its opening quote, which stands at `start`. -/
def takeString (quote : Char) (start : Nat) (done : List Char) (position : Nat) :
    List Char → Except LexError (Token × Source)
  | [] => .error (.unterminatedString start)
  | c :: s =>
    if c = quote then .ok (.string (.ofList done.reverse), ⟨position + 1, s⟩)
    else if c = '\\' then
      match s with
      | [] => .error (.unterminatedString start)
      | e :: t =>
        match unescape? e with
        | some c => takeString quote start (c :: done) (position + 2) t
        | none => .error (.invalidEscape e (position + 1))
    else takeString quote start (c :: done) (position + 1) s

/-- Whether a text starts with a digit. -/
def startsWithDigit : List Char → Bool
  | c :: _ => c.isDigit
  | [] => false

/-- The characters of a number: digits, a point between digits unless one came before, and
exponent letters before digits or a sign and digits. `float` says that a point or an exponent came.
-/
def takeNumber (float : Bool) (done : List Char) : List Char → Bool × List Char × List Char
  | [] => (float, done.reverse, [])
  | c :: s =>
    if c.isDigit then takeNumber float (c :: done) s
    else if c = '.' ∧ float = false ∧ startsWithDigit s then takeNumber true (c :: done) s
    else if c = 'e' ∨ c = 'E' then
      if startsWithDigit s then takeNumber true (c :: done) s
      else
        match s with
        | sign :: t =>
          if (sign = '+' ∨ sign = '-') ∧ startsWithDigit t then
            takeNumber true (sign :: c :: done) t
          else (float, done.reverse, c :: sign :: t)
        | [] => (float, done.reverse, [c])
    else (float, done.reverse, c :: s)

/-- The token of the characters of a number: whole if there is no point and no exponent and it fits
in 64 bits, else a double. -/
def numberToken? (float : Bool) (text : List Char) : Option Token :=
  match if float then none else fit? (digitsValue text) with
  | some n => some (.integer n)
  | none => (readDecimal? text).map .float

/-- The symbol at the start of a text. -/
def symbol? (s : List Char) : Option (Symbol × List Char) :=
  Symbol.longestFirst.findSome? fun sym =>
    (Text.stripLead? sym.spelling s).map fun rest => (sym, rest)

/-- The token at the start of a text that starts with neither a blank nor a comment. -/
def next? (position : Nat) (c : Char) (s : List Char) : Except LexError (Token × Source) :=
  match symbol? (c :: s) with
  | some (sym, rest) => .ok (.symbol sym, ⟨position + sym.spelling.length, rest⟩)
  | none =>
    if c = '"' ∨ c = '\'' then takeString c position [] (position + 1) s
    else if c.isDigit then
      let (float, text, rest) := takeNumber false [] (c :: s)
      match numberToken? float text with
      | some t => .ok (t, ⟨position + text.length, rest⟩)
      | none => .error (.invalidNumber (.ofList text) position)
    else if isNameStart c then
      let name := (c :: s).takeWhile isNamePart
      .ok (.ofWord (.ofList name), ⟨position + name.length, (c :: s).dropWhile isNamePart⟩)
    else .error (.unexpectedChar c position)

/-! ### A token takes at least one character -/

theorem takeString_shorter {quote : Char} {start position : Nat} {done s : List Char}
    {r : Token × Source} (h : takeString quote start done position s = .ok r) :
    r.2.rest.length < s.length := by
  fun_induction takeString quote start done position s <;> simp_all <;> try omega
  subst h; simp

theorem takeNumber_shorter {float : Bool} {done : List Char} {c : Char} {s : List Char}
    (h : c.isDigit = true) : (takeNumber float done (c :: s)).2.2.length < (c :: s).length := by
  have hle : ∀ float done (s : List Char), (takeNumber float done s).2.2.length ≤ s.length := by
    intro float done s
    fun_induction takeNumber float done s <;> simp_all <;> omega
  rw [takeNumber.eq_def]
  simp only [h, if_true]
  exact Nat.lt_succ_of_le (hle _ _ _)

theorem symbol?_eq_some {s rest : List Char} {sym : Symbol} (h : symbol? s = some (sym, rest)) :
    s = sym.spelling ++ rest := by
  obtain ⟨x, _, hx⟩ := List.exists_of_findSome?_eq_some h
  obtain ⟨r, hr, he⟩ := Option.map_eq_some_iff.1 hx
  cases he
  exact Text.stripLead?_eq_some.1 hr

theorem Symbol.spelling_length_pos (s : Symbol) : 0 < s.spelling.length := by
  cases s <;> decide

theorem next?_shorter {position : Nat} {c : Char} {s : List Char} {r : Token × Source}
    (h : next? position c s = .ok r) : r.2.rest.length < (c :: s).length := by
  unfold next? at h
  split at h
  · rename_i sym rest hs
    cases h
    have := congrArg List.length (symbol?_eq_some hs)
    have := sym.spelling_length_pos
    simp only [List.length_append] at *
    omega
  · split at h
    · exact Nat.lt_succ_of_lt (takeString_shorter h)
    · split at h
      · rename_i hd
        simp only at h
        split at h
        · cases h; exact takeNumber_shorter hd
        · cases h
      · split at h
        · rename_i hn
          cases h
          simp only [List.dropWhile_cons, isNamePart_of_isNameStart hn, if_true]
          exact Nat.lt_succ_of_le (List.dropWhile_sublist _).length_le
        · cases h

theorem skipGap_length_le (gap : Gap) (position : Nat) (s : List Char) :
    (skipGap gap position s).rest.length ≤ s.length := by
  induction s generalizing gap position with
  | nil => simp [skipGap]
  | cons c s ih =>
    rw [skipGap]
    split
    · exact Nat.le_refl _
    · exact Nat.le_succ_of_le (ih _ _)

/-- The tokens behind those already found, last one first. -/
def tokensFrom (done : List (Token × Nat)) (src : Source) :
    Except LexError (List (Token × Nat)) :=
  match _h : skipGap .blank src.position src.rest with
  | ⟨position, []⟩ => .ok ((.eof, position) :: done).reverse
  | ⟨position, c :: s⟩ =>
    match _hn : next? position c s with
    | .error e => .error e
    | .ok (token, after) => tokensFrom ((token, position) :: done) after
termination_by src.rest.length
decreasing_by
  have h1 := next?_shorter _hn
  have h2 := skipGap_length_le .blank src.position src.rest
  rw [_h] at h2
  exact Nat.lt_of_lt_of_le h1 h2

/-- The tokens of a text, each with the number of characters before it. -/
def tokenize (text : String) : Except LexError (List (Token × Nat)) :=
  tokensFrom [] ⟨0, text.toList⟩

end LiveNotes.Script
