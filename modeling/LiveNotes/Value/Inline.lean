import LiveNotes.Value.Json

/-!
Values as they stand in a document: texts as they are, numbers and truth values as written, null
and containers as compact JSON. Also the shortening of previews and the common kind of a list.
-/

namespace LiveNotes

open Number

namespace Value

/-- The text of a value inside a document. -/
def inline : Value → String
  | .string s => s
  | .integer n => integerText n
  | .float x => plain x
  | .boolean b => if b then "true" else "false"
  | v => v.toJson

/-- The kind that all values share, and `string` when they differ; a value that is missing is
`undefined`, and so is the kind of no values. -/
def commonKind (values : List (Option Value)) : String :=
  let word (v : Option Value) : String := v.elim "undefined" fun v => v.kind.word
  match values with
  | [] => "undefined"
  | first :: rest => if rest.all fun v => word v == word first then word first else "string"

end Value

/-- At most `limit` characters of a text, with three dots when something was cut. -/
def truncate (s : String) (limit : Nat) : String :=
  let cs := s.toList
  if cs.length ≤ limit then s else .ofList (cs.take limit ++ ['.', '.', '.'])

end LiveNotes
