import LiveNotes.Query.Basic
import LiveNotes.Text.Search

/-!
Reading queries. A query is a name and a text in parentheses; the function decides how the text is
taken apart.

* `parseQuery`: a text as a query, with the names of custom functions;
* `parseArguments`: the text in parentheses as arguments;
* `commaSplits`, `assigned?`: the parts of the grammar.
-/

namespace LiveNotes

/-- Why a text is no query. -/
inductive QueryError where
  | malformedCall (text : String)
  | unknownFunction (name : String)
  | argumentParsing (function : FunctionKind) (arguments : String)
deriving DecidableEq, Repr

/-- The message of an error. -/
def QueryError.message : QueryError → String
  | .malformedCall text => "malformed query '" ++ text ++ "', expected name(arguments)"
  | .unknownFunction name => "unknown function '" ++ name ++ "'"
  | .argumentParsing function arguments =>
    "cannot parse arguments of " ++ function.name ++ ": '" ++ arguments ++ "'"

/-! ### Arguments -/

/-- The texts before and behind each comma, the first comma first; a text before a comma is given
backwards. `passed` stands before the text, backwards too. -/
def commaSplits (passed : List Char) : List Char → List (List Char × List Char)
  | [] => []
  | c :: s =>
    if c = ',' then (passed, s) :: commaSplits (c :: passed) s else commaSplits (c :: passed) s

/-- What is assigned to a name at the start of a text; blanks may stand around the name. -/
def assigned? (name s : List Char) : Option (List Char) :=
  match Text.stripLead? name (Text.trimStart s) with
  | none => none
  | some s =>
    match Text.trimStart s with
    | '=' :: s => some s
    | _ => none

/-- References with commas between them; a blank text is one empty reference. -/
def splitReferences (s : List Char) : List String :=
  (Text.splitAt ',' s).map fun part => .ofList (Text.trim part)

/-- References with commas between them; a blank text has none. -/
def splitList (s : List Char) : List String := if Text.allBlank s then [] else splitReferences s

/-- What is assigned to a name behind a comma, with the text before that comma backwards. -/
def assignedBehind? (name : List Char) (split : List Char × List Char) :
    Option (List Char × List Char) :=
  (assigned? name split.2).map fun value => (split.1, value)

/-- The code of `jsFunc` and the references before it; the last assignment to `func` counts that
gives it anything. -/
def splitFunction? (s : List Char) : Option (List Char × Option (List Char)) :=
  let filled (value : List Char) : Bool := !value.isEmpty
  let splits := (commaSplits [] s).filterMap (assignedBehind? "func".toList)
  match (splits.filter fun split => filled split.2).getLast? with
  | some (leading, value) => some (value, some leading.reverse)
  | none => ((assigned? "func".toList s).filter filled).map fun value => (value, none)

/-- The code of `codeBlock` and its language, from the text assigned to `code`: the last assignment
to `lang` counts. -/
def splitLanguage? (s : List Char) : Option (List Char × List Char) :=
  match ((commaSplits [] s).filterMap (assignedBehind? "lang".toList)).getLast? with
  | some (code, language) => some (code.reverse, language)
  | none => none

/-- The code of `codeBlock`, its language, and the references before them; the first assignment to
`code` counts that has an assignment to `lang` behind it. -/
def splitCodeBlock? (s : List Char) : Option (List Char × List Char × Option (List Char)) :=
  let behind (split : List Char × List Char) : Option (List Char × List Char × Option (List Char)) := do
    let (leading, value) ← assignedBehind? "code".toList split
    let (code, language) ← splitLanguage? value
    return (code, language, some leading.reverse)
  match (commaSplits [] s).findSome? behind with
  | some r => some r
  | none => do
    let (code, language) ← splitLanguage? (← assigned? "code".toList s)
    return (code, language, none)

/-- The arguments of a function from the text in its parentheses. -/
def parseArguments (function : FunctionKind) (arguments : String) :
    Except QueryError (List String) :=
  let s := arguments.toList
  let failed := Except.error (.argumentParsing function arguments)
  match function with
  | .jsFunc =>
    match splitFunction? s with
    | none => failed
    | some (code, leading) =>
      if Text.allBlank code then failed
      else .ok (.ofList (Text.trim code) :: leading.elim [] splitReferences)
  | .codeBlock =>
    match splitCodeBlock? s with
    | none => failed
    | some (code, language, leading) =>
      .ok (.ofList (Text.trim code) :: .ofList (Text.trim language) ::
        leading.elim [] splitReferences)
  | _ => .ok (splitList s)

/-! ### Calls -/

/-- A character that can start the name of a function. -/
def isNameStart (c : Char) : Bool := c.isAlpha || c == '_'

/-- A character inside the name of a function. -/
def isNameChar (c : Char) : Bool := c.isAlphanum || c == '_'

/-- Whether a text is the name of a function as the grammar has it. -/
def isFunctionName (s : List Char) : Bool :=
  match s with
  | [] => false
  | c :: s => isNameStart c && s.all isNameChar

/-- The text up to a closing parenthesis that only blanks follow. -/
def upToClosing? (s : List Char) : Option (List Char) :=
  match s.reverse.dropWhile Text.isBlank with
  | ')' :: body => some body.reverse
  | _ => none

/-- The name and the text in parentheses of a call. -/
def splitCall? (s : List Char) : Option (List Char × List Char) :=
  let (name, s) := (Text.trimStart s).span isNameChar
  if isFunctionName name then
    match Text.trimStart s with
    | '(' :: s => (upToClosing? s).map fun body => (name, body)
    | _ => none
  else none

/-- The function of a name, which is always there or one of the custom ones. -/
def functionNamed? (custom : List String) (name : String) : Option FunctionKind :=
  match FunctionKind.builtin? name with
  | some f => some f
  | none => if custom.contains name then some (.custom name) else none

/-- A text as a query. -/
def parseQuery (custom : List String) (text : String) : Except QueryError Query := do
  match splitCall? text.toList with
  | none => throw (.malformedCall text)
  | some (name, body) =>
    match functionNamed? custom (.ofList name) with
    | none => throw (.unknownFunction (.ofList name))
    | some function => return .ofArguments function (← parseArguments function (.ofList body))

end LiveNotes
