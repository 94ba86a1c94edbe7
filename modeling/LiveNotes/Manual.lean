import LiveNotes.Text.Case

/-!
The manual that the program prints: a list of categories, and a text for each.

* `Category.ofName?`: a category by one of its names, in capitals or not;
* `Category.text`: the text of a category.
-/

namespace LiveNotes.Manual

/-- The categories. -/
inductive Category where
  | queries
  | references
  | functions
  | customFunctions
  | markup
deriving DecidableEq, Repr

/-- The names that a category answers to. -/
def Category.names : Category → List String
  | .queries => ["queries", "query"]
  | .references => ["references", "reference", "refs", "paths"]
  | .functions => ["functions", "builtins"]
  | .customFunctions => ["custom-functions", "custom", "jsfunc", "scripts"]
  | .markup => ["markup", "spans", "render"]

/-- All categories, in order. -/
def Category.all : List Category := [.queries, .references, .functions, .customFunctions, .markup]

/-- A name in small letters, with a hyphen for each underscore. -/
def normalName (name : String) : String :=
  .ofList ((Text.lower name.toList).map fun c => if c = '_' then '-' else c)

/-- The category that answers to a name. -/
def Category.ofName? (name : String) : Option Category :=
  Category.all.find? fun category => category.names.contains (normalName name)

/-- The list of categories, with a quick reference. -/
def overview : String := "LIVEVARS DOCUMENTATION

Live variables compute values from the front-matter properties of Markdown
documents and keep the result inline, next to the query that produced it.

DOCUMENTATION CATEGORIES

  queries            Query syntax: name(arguments)
  references         Addressing properties in this and other documents
  functions          Built-in functions: get, sum, jsFunc, codeBlock
  custom-functions   The language of jsFunc bodies and saved functions
  markup             How rendered variables are stored in documents

QUICK REFERENCE

  get(total)                           One property of this document
  get(projects/budget.md/total)        One property of another document
  sum(rent, food)                      Numbers are added, anything else joined
  jsFunc(a, b, func = (x, y) => x * y) Inline custom function
  codeBlock(v, code = f(\x7b\x7bv\x7d\x7d), lang = py)
                                       Code block with substituted values

Run 'livevars doc <category>' for detailed documentation.
"

/-- How queries are written. -/
def queriesText : String := "QUERIES - Query Syntax

FORM
  name(arguments)
    A query is a single function call. Whitespace around the call is
    ignored. The arguments run from the first \"(\" to the last \")\".

ARGUMENT LISTS
  get, sum, concat and saved custom functions
    Comma-separated references, each trimmed.

      sum(a, b, notes/c.md/d)      -> [\"a\", \"b\", \"notes/c.md/d\"]
      sum()                        -> []

  jsFunc
    [references \",\"] func = code
    The last \", func =\" separates the references from the code, so the
    code may contain commas, parentheses and newlines.

      jsFunc(x, y, func = (a, b) => a + b)

  codeBlock
    [references \",\"] code = text \",\" lang = language
    The first \", code =\" ends the references, the last \", lang =\" ends the
    code text.

      codeBlock(v, code = print(\x7b\x7bv\x7d\x7d), lang = python)

ERRORS
  - Text that is not name(...)           malformed query
  - A name that is neither built in nor saved   unknown function
  - jsFunc without func =, codeBlock without code = / lang =
                                          argument parsing error
"

/-- How properties are addressed. -/
def referencesText : String := "REFERENCES - Addressing Properties

LOCAL
  total
  owner.name
  items[0].cost
    A reference without \"/\" is a property path in the current document.
    Dots step into mappings, brackets into lists.

GLOBAL
  projects/budget.md/total
    Everything before the last \"/\" is the document path, relative to the
    vault root; the rest is the property path.

RESOLUTION
  - A missing document, property or index has no value (\"undefined\")
  - The empty reference has no value
  - Local paths shadow global ones in suggestions and previews

LISTING
  livevars paths [FILTER] --vault DIR [--note NOTE] [--prefix] [--local]
    Every path, local ones first. Containers are listed as well as their
    members, e.g. \"items\", \"items[0]\", \"items[0].cost\".
"

/-- The functions that are always there. -/
def functionsText : String := "FUNCTIONS - Built-in Functions

GET
  get(reference)
    The referenced value. An unresolvable reference gives \"\".
    Exactly one reference is accepted.

SUM
  sum(reference, ...)
    If every value is a number, their sum (0 for no arguments).
    Otherwise the values' text forms joined together; an unresolvable
    reference contributes \"\".

      sum(a, b)       a = 2, b = 3      -> 5
      sum(a, b)       a = \"x\", b = 3    -> \"x3\"

JSFUNC
  jsFunc(reference, ..., func = code)
    Calls the function literal in code with the referenced values, in
    order. Fails (no value) if a reference does not resolve, the argument
    count differs from the parameter count, or the code throws.

CODEBLOCK
  codeBlock(reference, ..., code = text, lang = language)
    Replaces each \x7b\x7b...\x7d\x7d placeholder in text with the next referenced
    value and wraps the result in a fenced code block. The number of
    placeholders must equal the number of references.

CUSTOM
  name(reference, ...)
    A function saved with 'livevars functions add', evaluated like jsFunc.

CONCAT
  concat(...)
    Reserved. Parses, but has no value.
"

/-- The language of saved functions. -/
def customFunctionsText : String := "CUSTOM-FUNCTIONS - The Function Language

FUNCTION LITERALS
  x => x * 2
  (a, b) => a + b
  (net) => \x7b const rate = 0.2; return net * (1 + rate); \x7d
  function (a, b) \x7b return a > b ? a : b; \x7d

VALUES
  Numbers, 'strings' or \"strings\", true, false, null, undefined,
  [arrays] and \x7bobjects\x7d.

OPERATORS
  Arithmetic        + - * / %     (\"+\" joins if either side is a string)
  Comparison        < <= > >=  == !=  === !==
  Logical           && || ! ??
  Conditional       cond ? a : b
  Access            obj.name  obj[\"name\"]  list[0]

STRING METHODS
  length toUpperCase toLowerCase trim includes startsWith endsWith
  indexOf slice split replace replaceAll repeat padStart padEnd concat
  charAt at toString

ARRAY METHODS
  length join includes indexOf slice concat reverse at
  map filter find findIndex some every reduce
    Callbacks must be written in place: items.map(x => x * 2)

NUMBER METHODS
  toFixed toString

GLOBALS
  Math.round floor ceil abs min max pow sqrt trunc sign, Math.PI, Math.E
  JSON.stringify JSON.parse
  Object.keys Object.values Object.entries
  String() Number() Boolean() parseInt() parseFloat()

LIMITS
  Functions only see their arguments. Each evaluation step counts against
  a budget (scriptMaxSteps in the settings, 100000 by default); running
  out is an error and the query has no value.
"

/-- How rendered queries stand in documents. -/
def markupText : String := "MARKUP - Rendered Variables

FORM
  <span query=\"QUERY\"></span>VALUE<span type=\"end\"></span>
    QUERY is escaped: & \" < > become entities and newlines become &#10;.
    VALUE is the text form of the result; lists and objects are JSON.

OLDER FORMS
  <span id=\"REF\"/>VALUE<span type=\"end\"/>          read as get(REF)
  <span query=\"QUERY\"/>VALUE<span type=\"end\"/>
    Both are rewritten in the current form when rendered.

RENDERING
  livevars render NOTE --vault DIR [--write]
    Recomputes every span. A span whose query fails or has no value is
    left unchanged; the others are still updated.
"

/-- The text of a category. -/
def Category.text : Category → String
  | .queries => queriesText
  | .references => referencesText
  | .functions => functionsText
  | .customFunctions => customFunctionsText
  | .markup => markupText

end LiveNotes.Manual
