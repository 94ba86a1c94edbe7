import LiveNotes.Json.Layout
import LiveNotes.Json.Node

/-!
Writing a JSON tree to a file. What is written reads back to the same tree, also where a string
holds half of a surrogate pair.

* `Node.compact`: all on one line, without blanks;
* `Node.pretty`: indented, without a line end behind it.
-/

namespace LiveNotes.Json

/-- The digits behind a point, if there are any. -/
def fractionText (fraction : Option (List Char)) : List Char :=
  match fraction with
  | none => []
  | some ds => '.' :: ds

/-- The exponent of a number, if it has one. -/
def exponentText (exponent : Option (Bool × List Char)) : List Char :=
  match exponent with
  | none => []
  | some (negative, ds) => 'e' :: if negative then '-' :: ds else ds

/-- A number as it is written. -/
def NumberText.text (n : NumberText) : String :=
  .ofList ((if n.negative then ['-'] else []) ++ n.whole ++ fractionText n.fraction ++
    exponentText n.exponent)

/-- A string that holds half of a surrogate pair. -/
def brokenQuote : String := "\"\\ud800\""

/-- The text of a tree without parts. -/
def Node.leafText : Node → String
  | .null => "null"
  | .boolean b => if b then "true" else "false"
  | .number n => n.text
  | .text s => fileQuote s
  | .brokenText => brokenQuote
  | .array _ => "[]"
  | .object _ => "\x7b\x7d"
  | .brokenObject => "\x7b" ++ brokenQuote ++ ":null\x7d"

mutual

/-- The text of a tree on one line. -/
def Node.compact : Node → String
  | .array items => "[" ++ String.intercalate "," (compactItems items) ++ "]"
  | .object members => "\x7b" ++ String.intercalate "," (compactMembers members) ++ "\x7d"
  | n => n.leafText

/-- The texts of items. -/
def compactItems : List Node → List String
  | [] => []
  | n :: rest => n.compact :: compactItems rest

/-- The texts of members. -/
def compactMembers : List (String × Node) → List String
  | [] => []
  | (name, n) :: rest => (fileQuote name ++ ":" ++ n.compact) :: compactMembers rest

end

mutual

/-- The indented text of a tree at some depth. -/
def Node.prettyAt (depth : Nat) : Node → String
  | .array (n :: rest) => block "[" "]" depth (prettyItems (depth + 1) (n :: rest))
  | .object (m :: rest) => block "\x7b" "\x7d" depth (prettyMembers (depth + 1) (m :: rest))
  | n => n.leafText

/-- The indented texts of items. -/
def prettyItems (depth : Nat) : List Node → List String
  | [] => []
  | n :: rest => n.prettyAt depth :: prettyItems depth rest

/-- The indented texts of members. -/
def prettyMembers (depth : Nat) : List (String × Node) → List String
  | [] => []
  | (name, n) :: rest => (fileQuote name ++ ": " ++ n.prettyAt depth) :: prettyMembers depth rest

end

/-- The indented text of a tree. -/
def Node.pretty (n : Node) : String := n.prettyAt 0

/-- The tree of a natural number. -/
def Node.ofNatural (n : Nat) : Node := .number ⟨false, Nat.toDigits 10 n, none, none⟩

end LiveNotes.Json
