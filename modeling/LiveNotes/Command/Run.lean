import LiveNotes.Command.Request

/-!
Running the program: a command line is read, its request is carried out on a disk, and what is
printed is gathered.

* `perform`: the output of a request;
* `run`: the output for a command line.
-/

namespace LiveNotes.Command

/-- What the program prints, and the code that it ends with. -/
structure Output where
  code : Nat
  printed : String
  reported : String
deriving DecidableEq, Repr

/-- The output of a request that printed a text. -/
def Output.print (text : String) : Output := ⟨0, text, ""⟩

/-- The output of a request that reported a text besides its result. -/
def Output.report (text : String) : Output := ⟨0, "", text⟩

/-- A text as a line. -/
def asLine (text : String) : String := text ++ "\n"

/-- How the program is called. -/
def usage : String := "Live variables - computed values from Markdown front matter

Usage:
  livevars parse [QUERY] [--settings FILE] [--pretty]
  livevars eval [QUERY] --vault DIR --note NOTE [--settings FILE] [--pretty]
  livevars paths [FILTER] --vault DIR [--note NOTE] [--prefix] [--local] [--values]
  livevars preview PATH --vault DIR [--note NOTE]
  livevars render NOTE --vault DIR [--settings FILE] [--write]
  livevars functions --settings FILE list
  livevars functions --settings FILE add NAME [CODE]
  livevars functions --settings FILE remove NAME
  livevars docs
  livevars doc CATEGORY
"

/-- The name and version of the program. -/
def versionText : String := "livevars 0.3.0"

variable {m : Type → Type} [Monad m]

/-- A text that is given, or else the input without the blanks around it. -/
def orInput (input : ExceptT FileError m String) (given : Option String) :
    ExceptT CommandError m String := do
  match given with
  | some text => return text
  | none =>
    let text := Text.trimmed (← ExceptT.adapt .input input)
    if text.isEmpty then throw .noInput else return text

/-- A path as a line, with its preview if that is asked for. -/
def pathLine (withValues : Bool) (path : String × String) : String :=
  asLine (if withValues then path.1 ++ "\t" ++ path.2 else path.1)

/-- A function as a line. -/
def functionLine (f : CustomFunction) : String := asLine (f.name ++ "\t" ++ f.code)

/-- The output of a request. -/
def perform (disk : Disk m) (input : ExceptT FileError m String) :
    Request → ExceptT CommandError m Output
  | .parse query settings pretty => do
    let query ← parseCommand disk settings (← orInput input query)
    return .print (asLine (if pretty then query.toNode.pretty else query.toJson))
  | .eval query vault note settings pretty => do
    let value ← evaluate ⟨disk, vault⟩ settings note (← orInput input query)
    return .print (asLine (if pretty then value.toPrettyJson else value.toJson))
  | .paths vault note filter withValues => do
    let paths ← listPaths ⟨disk, vault⟩ note filter
    return .print (String.join (paths.map (pathLine withValues)))
  | .preview path vault note => do
    return .print (asLine (← previewPath ⟨disk, vault⟩ note path))
  | .render note vault settings writeBack => do
    let rendering ← renderNote ⟨disk, vault⟩ settings note writeBack
    if writeBack then
      let status := if rendering.changed then "updated" else "unchanged"
      return .report (asLine (note ++ ": " ++ status))
    else return .print rendering.text
  | .listFunctions settings => do
    let functions ← listFunctions (.file disk settings)
    return .print (String.join (functions.map functionLine))
  | .addFunction settings name code => do
    addFunction (.file disk settings) name (← orInput input code)
    return .report (asLine ("saved " ++ name))
  | .removeFunction settings name => do
    let f ← removeFunction (.file disk settings) name
    return .report (asLine ("removed " ++ f.name))
  | .manual => return .print Manual.overview
  | .manualOn category => .mk do return (manualText category).map .print

/-- The output for a command line that asks for no work. -/
def Stop.output : Stop → Output
  | .misuse => ⟨2, "", usage⟩
  | .help => .print usage
  | .version => .print (asLine versionText)

/-- The output for what came of a request. -/
def outputOf : Except CommandError Output → Output
  | .ok output => output
  | .error e => ⟨1, "", asLine e.message⟩

/-- The output for a command line. -/
def run (disk : Disk m) (input : ExceptT FileError m String) (line : List String) : m Output :=
  match Request.ofLine line with
  | .error stop => return stop.output
  | .ok request => return outputOf (← (perform disk input request).run)

end LiveNotes.Command
