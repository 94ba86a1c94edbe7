import LiveNotes.Text.Blank
import LiveNotes.Text.Quoted

/-!
Strings in JSON text. The text of a value writes all controls as escapes; a file escapes only what
has to be, by the short form where there is one.

* `quote`: a string in the text of a value;
* `fileQuote`: a string in a file.
-/

namespace LiveNotes.Json

/-- A code point as an escape of four hexadecimal digits. -/
def unicodeEscape (n : Nat) : List Char :=
  let ds := Text.hexDigits n
  '\\' :: 'u' :: List.replicate (4 - ds.length) '0' ++ ds

/-- A character inside the quotes of a string in the text of a value. -/
def escapeChar (c : Char) : List Char :=
  match c with
  | '"' => ['\\', '"']
  | '\\' => ['\\', '\\']
  | '\n' => ['\\', 'n']
  | '\r' => ['\\', 'r']
  | '\t' => ['\\', 't']
  | c => if Text.isControl c then unicodeEscape c.toNat else [c]

/-- A character inside the quotes of a string in a file. -/
def fileChar (c : Char) : List Char :=
  match c with
  | '\x08' => ['\\', 'b']
  | '\x0c' => ['\\', 'f']
  | c => if c.toNat < 0x20 ∨ c = '"' ∨ c = '\\' then escapeChar c else [c]

/-- A string in quotes, with the characters inside written by `escape`. -/
def quoteBy (escape : Char → List Char) (s : String) : String :=
  .ofList ('"' :: s.toList.flatMap escape ++ ['"'])

/-- A string in the text of a value. -/
def quote (s : String) : String := quoteBy escapeChar s

/-- A string in a file. -/
def fileQuote (s : String) : String := quoteBy fileChar s

end LiveNotes.Json
