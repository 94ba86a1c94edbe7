import LiveNotes.Entries

/-!
Reading the words of a command line: options by name or by letter, and words that stand for
themselves. Behind two hyphens alone, everything is a word.

* `OptionRule`: an option that a command knows;
* `readArguments`: the options and words of a command line.
-/

namespace LiveNotes.Command

/-- Why a command line asks for no work: it is wrong, or it asks for a text about the program. -/
inductive Stop where
  | misuse
  | help
  | version
deriving DecidableEq, Repr

/-- What an option takes: nothing, a text, or a path, which is never empty. Some options end the
reading. -/
inductive OptionKind where
  | flag
  | text
  | path
  | stop (reason : Stop)
deriving DecidableEq, Repr

/-- Whether an option takes a value. -/
def OptionKind.takesValue : OptionKind → Bool
  | .text | .path => true
  | .flag | .stop _ => false

/-- An option with its long name, its letter and what it takes. -/
structure OptionRule where
  name : String
  letter : Option Char
  kind : OptionKind
deriving DecidableEq, Repr

/-- What was found in a command line: options with their values, and words. -/
structure Arguments where
  options : Entries String
  words : List String
deriving DecidableEq, Repr

namespace Arguments

/-- Nothing found yet. -/
def empty : Arguments := ⟨[], []⟩

/-- The value of an option. -/
def value? (arguments : Arguments) (name : String) : Option String :=
  Entries.get? arguments.options name

/-- Whether an option is there. -/
def has (arguments : Arguments) (name : String) : Bool := (arguments.value? name).isSome

/-- One more option; none comes twice. -/
def addOption (arguments : Arguments) (rule : OptionRule) (value : String) :
    Except Stop Arguments :=
  match rule.kind with
  | .stop reason => .error reason
  | kind =>
    if arguments.has rule.name || (kind == .path && value.isEmpty) then .error .misuse
    else .ok { arguments with options := Entries.insert arguments.options rule.name value }

/-- More words, as long as there are not more than `most`. -/
def addWords (arguments : Arguments) (most : Nat) (words : List String) : Except Stop Arguments :=
  if arguments.words.length + words.length ≤ most then
    .ok { arguments with words := arguments.words ++ words }
  else .error .misuse

end Arguments

/-- What follows an option: nothing more, or its value. -/
inductive Expecting where
  | nothing (arguments : Arguments)
  | value (rule : OptionRule)

/-- Reads an option given by its name, with a value behind an equals sign or still to come. -/
def readNamed (rules : List OptionRule) (arguments : Arguments) (body : List Char) :
    Except Stop Expecting :=
  let (name, rest) := body.span (· != '=')
  match rules.find? (·.name == String.ofList name) with
  | none => .error .misuse
  | some rule =>
    match rest, rule.kind.takesValue with
    | [], true => .ok (.value rule)
    | [], false => Expecting.nothing <$> arguments.addOption rule ""
    | _ :: value, true => Expecting.nothing <$> arguments.addOption rule (.ofList value)
    | _ :: _, false => .error .misuse

/-- Reads options given by letters; what stands behind the letter of an option with a value is its
value. -/
def readLetters (rules : List OptionRule) (arguments : Arguments) :
    List Char → Except Stop Expecting
  | [] => .ok (.nothing arguments)
  | c :: rest =>
    match rules.find? (·.letter == some c) with
    | none => .error .misuse
    | some rule =>
      match rule.kind.takesValue, rest with
      | false, _ =>
        match arguments.addOption rule "" with
        | .ok arguments => readLetters rules arguments rest
        | .error e => .error e
      | true, [] => .ok (.value rule)
      | true, '=' :: value => Expecting.nothing <$> arguments.addOption rule (.ofList value)
      | true, value => Expecting.nothing <$> arguments.addOption rule (.ofList value)

/-- What a word of a command line is. -/
inductive WordForm where
  | onlyWords
  | named (body : List Char)
  | letters (letters : List Char)
  | plain

/-- The form of a word by the hyphens at its start; a single hyphen is a word like any other. -/
def wordForm (word : String) : WordForm :=
  match word.toList with
  | ['-', '-'] => .onlyWords
  | '-' :: '-' :: body => .named body
  | '-' :: c :: letters => .letters (c :: letters)
  | _ => .plain

/-- Whether a word can be the value of an option before it. -/
def isValue (word : String) : Bool :=
  match wordForm word with
  | .plain => true
  | _ => false

/-- How far a command line is read: up to the first word, or to its end with so many words. -/
inductive Extent where
  | firstWord
  | words (most : Nat)

/-- Reads a command line behind what was already found. What was not read is left over. -/
def readArguments (rules : List OptionRule) (extent : Extent) (arguments : Arguments) :
    List String → Except Stop (Arguments × List String)
  | [] => .ok (arguments, [])
  | word :: rest =>
    let read : Option (Except Stop Expecting) :=
      match wordForm word with
      | .named body => some (readNamed rules arguments body)
      | .letters letters => some (readLetters rules arguments letters)
      | _ => none
    match read, extent with
    | some (.error e), _ => .error e
    | some (.ok (.nothing arguments)), _ => readArguments rules extent arguments rest
    | some (.ok (.value rule)), _ =>
      match rest with
      | [] => .error .misuse
      | value :: rest =>
        if isValue value then
          match arguments.addOption rule value with
          | .ok arguments => readArguments rules extent arguments rest
          | .error e => .error e
        else .error .misuse
    | none, .firstWord => if isValue word then .ok (arguments, word :: rest) else .error .misuse
    | none, .words most =>
      if isValue word then
        match arguments.addWords most [word] with
        | .ok arguments => readArguments rules extent arguments rest
        | .error e => .error e
      else
        match arguments.addWords most rest with
        | .ok arguments => .ok (arguments, [])
        | .error e => .error e

/-- The options and words of a whole command line. -/
def readAll (rules : List OptionRule) (most : Nat) (line : List String) : Except Stop Arguments := do
  return (← readArguments rules (.words most) .empty line).1

end LiveNotes.Command
