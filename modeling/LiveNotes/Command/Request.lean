import LiveNotes.Command.Arguments
import LiveNotes.Command.Basic

/-!
What a command line asks for.

* `Request`: the work that the program can be asked for;
* `Request.ofLine`: the request of a command line.
-/

namespace LiveNotes.Command

/-- A piece of work for the program. A query or code that is not given is read from the input. -/
inductive Request where
  | parse (query settings : Option String) (pretty : Bool)
  | eval (query : Option String) (vault note : String) (settings : Option String) (pretty : Bool)
  | paths (vault : String) (note : Option String) (filter : PathFilter) (withValues : Bool)
  | preview (path vault : String) (note : Option String)
  | render (note vault : String) (settings : Option String) (writeBack : Bool)
  | listFunctions (settings : String)
  | addFunction (settings name : String) (code : Option String)
  | removeFunction (settings name : String)
  | manual
  | manualOn (category : String)
deriving DecidableEq, Repr

/-! ### Options -/

def helpOption : OptionRule := ⟨"help", some 'h', .stop .help⟩

def versionOption : OptionRule := ⟨"version", some 'V', .stop .version⟩

def settingsOption : OptionRule := ⟨"settings", some 's', .path⟩

def vaultOption : OptionRule := ⟨"vault", none, .path⟩

def noteOption : OptionRule := ⟨"note", some 'n', .text⟩

def prettyOption : OptionRule := ⟨"pretty", some 'p', .flag⟩

def startOption : OptionRule := ⟨"prefix", none, .flag⟩

def localOption : OptionRule := ⟨"local", none, .flag⟩

def valuesOption : OptionRule := ⟨"values", none, .flag⟩

def writeOption : OptionRule := ⟨"write", some 'w', .flag⟩

/-- The value of an option. -/
def Arguments.option? (arguments : Arguments) (rule : OptionRule) : Option String :=
  arguments.value? rule.name

/-- The value of an option that has to be there. -/
def Arguments.option (arguments : Arguments) (rule : OptionRule) : Except Stop String :=
  match arguments.option? rule with
  | some value => .ok value
  | none => .error .misuse

/-- Whether a flag is there. -/
def Arguments.flag (arguments : Arguments) (rule : OptionRule) : Bool := arguments.has rule.name

/-- The first word, if there is one. -/
def Arguments.word? (arguments : Arguments) : Option String := arguments.words.head?

/-- The first word, which has to be there. -/
def Arguments.word (arguments : Arguments) : Except Stop String :=
  match arguments.word? with
  | some word => .ok word
  | none => .error .misuse

/-! ### Requests -/

/-- The names of the commands. -/
def commandNames : List String :=
  ["parse", "eval", "paths", "preview", "render", "functions", "docs", "doc", "help"]

/-- The names of the actions on saved functions. -/
def actionNames : List String := ["list", "add", "remove", "help"]

/-- Why a line asking for help on one of some names, or on nothing in particular, asks for no
work. -/
def helpAmong (names line : List String) : Stop :=
  match line with
  | [] => .help
  | [name] => if names.contains name then .help else .misuse
  | _ => .misuse

/-- Why a line asking for help on a command, or on an action of one, asks for no work. -/
def helpOn (line : List String) : Stop :=
  match line with
  | "functions" :: line => helpAmong actionNames line
  | line => helpAmong commandNames line

/-- The request about the functions of a settings file that an action and the rest of the line
are. -/
def functionsRequest (settings : Except Stop String) (action : String) (line : List String) :
    Except Stop Request :=
  match action with
  | "help" => .error (helpAmong actionNames line)
  | "list" => do
    let _ ← readAll [helpOption] 0 line
    return .listFunctions (← settings)
  | "add" => do
    let found ← readAll [helpOption] 2 line
    let name ← found.word
    return .addFunction (← settings) name found.words[1]?
  | "remove" => do
    let found ← readAll [helpOption] 1 line
    let name ← found.word
    return .removeFunction (← settings) name
  | _ => .error .misuse

/-- The request of a command and the rest of the line. -/
def commandRequest (command : String) (line : List String) : Except Stop Request :=
  match command with
  | "help" => .error (helpOn line)
  | "parse" => do
    let found ← readAll [helpOption, settingsOption, prettyOption] 1 line
    return .parse found.word? (found.option? settingsOption) (found.flag prettyOption)
  | "eval" => do
    let found ← readAll [helpOption, vaultOption, noteOption, settingsOption, prettyOption] 1 line
    let vault ← found.option vaultOption
    let note ← found.option noteOption
    return .eval found.word? vault note (found.option? settingsOption) (found.flag prettyOption)
  | "paths" => do
    let found ← readAll
      [helpOption, vaultOption, noteOption, startOption, localOption, valuesOption] 1 line
    let vault ← found.option vaultOption
    let filter := ⟨found.word?.getD "", found.flag startOption, found.flag localOption⟩
    return .paths vault (found.option? noteOption) filter (found.flag valuesOption)
  | "preview" => do
    let found ← readAll [helpOption, vaultOption, noteOption] 1 line
    let vault ← found.option vaultOption
    return .preview (← found.word) vault (found.option? noteOption)
  | "render" => do
    let found ← readAll [helpOption, vaultOption, settingsOption, writeOption] 1 line
    let vault ← found.option vaultOption
    return .render (← found.word) vault (found.option? settingsOption) (found.flag writeOption)
  | "functions" => do
    let (found, line) ← readArguments [helpOption, settingsOption] .firstWord .empty line
    match line with
    | [] => .error .misuse
    | action :: line => functionsRequest (found.option settingsOption) action line
  | "docs" => do
    let _ ← readAll [helpOption] 0 line
    return .manual
  | "doc" => do
    let found ← readAll [helpOption] 1 line
    return .manualOn (← found.word)
  | _ => .error .misuse

/-- The request of a command line. -/
def Request.ofLine (line : List String) : Except Stop Request := do
  let (_, line) ← readArguments [helpOption, versionOption] .firstWord .empty line
  match line with
  | [] => .error .misuse
  | command :: line => commandRequest command line

end LiveNotes.Command
