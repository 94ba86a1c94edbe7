import LiveNotes.Query.Basic
import LiveNotes.Store.Tree
import LiveNotes.Settings.Basic
import LiveNotes.Text.Pieces
import LiveNotes.Value.Arith
import LiveNotes.Value.Inline

/-!
The values of queries. A query without a value, for whatever reason, gives none.

* `resolve?`: the value that a reference names;
* `Query.value?`: the value of a query;
* `placeholder?`: the places of a code block that values are put in.
-/

namespace LiveNotes

/-- What queries are computed from: the document that they stand in, the tree of the vault, the
functions saved and the limit of steps. -/
structure Context where
  document : String
  tree : PropertyTree
  functions : List CustomFunction
  maxSteps : Nat

/-- The document and the path inside it that a reference names. Without a slash it is a path inside
`current`. -/
def splitReference (current reference : String) : String × String :=
  match Text.cutLast? '/' reference.toList with
  | some (document, path) => (.ofList document, .ofList path)
  | none => (current, reference)

/-- The value that a reference names. -/
def resolve? (context : Context) (reference : String) : Option Value :=
  if reference.isEmpty then none
  else
    let (document, path) := splitReference context.document reference
    (context.tree.document? document).bind (·.lookup? path)

/-- The value of one reference; without a value the text is empty. -/
def getValue? (context : Context) (references : List String) : Option Value :=
  match references with
  | [] => some (.string "")
  | [reference] => some ((resolve? context reference).getD (.string ""))
  | _ => none

/-- The sum of references if all are numbers, else their texts joined. -/
def sumValue (context : Context) (references : List String) : Value :=
  let values := references.map (resolve? context)
  if values.isEmpty || Value.commonKind values == Kind.number.word then
    (values.filterMap id).foldl (fun sum v => (Value.arith? .add sum v).getD sum) (.integer 0)
  else .string (values.foldl (fun s v => s ++ v.elim "" Value.inline) "")

/-- The values of references, if all have one. -/
def resolveAll? (context : Context) (references : List String) : Option (List Value) :=
  references.mapM (resolve? context)

/-- The value that a function gives for references; null is no value. -/
def runValue? (context : Context) (code : String) (references : List String) : Option Value := do
  let values ← resolveAll? context references
  match Script.compile code with
  | .error _ => none
  | .ok f =>
    match Script.invoke context.maxSteps f values with
    | .ok .null | .error _ => none
    | .ok v => some v

/-- A placeholder at the start of a text: two braces, at least one character of the same line, and
two closing braces at the first place where they can stand. -/
def placeholder? (s : List Char) : Option (Text.Hit s Unit) :=
  match h : s with
  | '\x7b' :: '\x7b' :: c :: rest =>
    if c = '\n' then none
    else
      match hc : Text.cut? ['\x7d', '\x7d'] rest with
      | some (name, behind) =>
        if name.contains '\n' then none
        else some ⟨(), behind, by
          have := Text.length_of_cut? (by simp) hc
          simp only [List.length_cons]
          omega⟩
      | none => none
  | _ => none

/-- A template with values put in its placeholders, one after the other. -/
def fillIn (pieces : List (Text.Piece Unit)) (values : List String) : String :=
  match pieces with
  | [] => ""
  | .plain s :: pieces => s ++ fillIn pieces values
  | .hit () :: pieces => values.headD "" ++ fillIn pieces values.tail

/-- A code block with the values of references in its placeholders, of which there have to be as
many. -/
def codeBlockValue? (context : Context) (arguments : List String) : Option Value :=
  match arguments with
  | code :: language :: references => do
    let values ← resolveAll? context references
    let pieces := Text.pieces placeholder? code.toList
    if (pieces.filter Text.Piece.isHit).length = values.length then
      return .string ("\x60\x60\x60" ++ language ++ "\n" ++ fillIn pieces (values.map Value.inline) ++
        "\n\x60\x60\x60")
    else none
  | _ => none

/-- The value of a query. -/
def Query.value? (query : Query) (context : Context) : Option Value :=
  match query.function with
  | .get => getValue? context query.arguments
  | .sum => some (sumValue context query.arguments)
  | .jsFunc =>
    match query.arguments with
    | [] => none
    | code :: references => runValue? context code references
  | .codeBlock => codeBlockValue? context query.arguments
  | .custom name =>
    match context.functions.find? (·.name == name) with
    | none => none
    | some f => runValue? context f.code query.arguments
  | .concat => none

end LiveNotes
