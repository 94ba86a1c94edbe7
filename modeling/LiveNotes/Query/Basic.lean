import LiveNotes.Json.Printer
import LiveNotes.Json.Record
import LiveNotes.Text.Blank

/-!
Queries: a function and its arguments. Arguments are texts; for `jsFunc` the code comes first and
for `codeBlock` the code and the language, and the references to properties follow.

* `Query.ofArguments`: the query that a function and arguments are, in the form that its text
  reads back to;
* `Query.text`: how a query is written;
* `Query.toJson`, `Query.ofJson?`: the JSON form of a query.
-/

namespace LiveNotes

/-- The functions that a query can call. -/
inductive FunctionKind where
  | get | sum | jsFunc | codeBlock | concat
  | custom (name : String)
deriving DecidableEq, Repr

namespace FunctionKind

/-- The name of a function. -/
def name : FunctionKind → String
  | .get => "get"
  | .sum => "sum"
  | .jsFunc => "jsFunc"
  | .codeBlock => "codeBlock"
  | .concat => "concat"
  | .custom name => name

/-- The functions that are always there. -/
def builtins : List FunctionKind := [.get, .sum, .jsFunc, .codeBlock, .concat]

/-- The function of a name, if it is always there. -/
def builtin? (name : String) : Option FunctionKind := builtins.find? (·.name == name)

/-- The function of a name; any other than those always there is a custom one. -/
def ofName (name : String) : FunctionKind := (builtin? name).getD (.custom name)

/-- Whether a function is not one of those always there. -/
def isCustom : FunctionKind → Bool
  | .custom _ => true
  | _ => false

/-- The number of arguments that are no references; the functions with such arguments run code. -/
def codeArguments : FunctionKind → Nat
  | .jsFunc => 1
  | .codeBlock => 2
  | _ => 0

/-- Whether some arguments are no references. -/
def hasCode (f : FunctionKind) : Bool := f.codeArguments != 0

theorem builtin?_eq_some {name : String} {f : FunctionKind} (h : builtin? name = some f) :
    f.name = name := by
  simpa using List.find?_some h

end FunctionKind

/-- A function with its arguments. -/
structure Query where
  function : FunctionKind
  arguments : List String
deriving DecidableEq, Repr

namespace Query

/-- The query of a function and arguments: they are trimmed, and a single blank reference is
none. -/
def ofArguments (function : FunctionKind) (arguments : List String) : Query :=
  let arguments := arguments.map Text.trimmed
  if !function.hasCode && arguments == [""] then ⟨function, []⟩ else ⟨function, arguments⟩

/-- The references to properties. -/
def references (q : Query) : List String := q.arguments.drop q.function.codeArguments

/-- References with commas between them. -/
def listed (references : List String) : String := String.intercalate ", " references

/-- The arguments as they are written; references before code are followed by a comma. -/
def argumentsText (q : Query) : String :=
  let leading := if q.references.isEmpty then "" else listed q.references ++ ", "
  match q.function with
  | .jsFunc => leading ++ "func = " ++ q.arguments[0]?.getD ""
  | .codeBlock =>
    leading ++ "code = " ++ q.arguments[0]?.getD "" ++ ", lang = " ++ q.arguments[1]?.getD ""
  | _ => listed q.references

/-- A query as it is written. -/
def text (q : Query) : String := q.function.name ++ "(" ++ q.argumentsText ++ ")"

/-- The JSON tree of a query. -/
def toNode (q : Query) : Json.Node :=
  .object [("function", .text q.function.name), ("arguments", .array (q.arguments.map .text))]

/-- The JSON form of a query. -/
def toJson (q : Query) : String := q.toNode.compact

end Query

/-- The query of a JSON text. -/
def Query.ofJson? (text : String) : Option Query := do
  match ← (← Json.Node.read? text).record? ["function", "arguments"] with
  | [some function, some arguments] =>
    let items ← arguments.items?
    return ofArguments (.ofName (← function.text?)) (← items.mapM Json.Node.text?)
  | _ => none

end LiveNotes
