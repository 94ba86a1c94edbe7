import LiveNotes.Script.Machine
import LiveNotes.Script.Operator
import LiveNotes.Text.Case

/-!
The methods of texts, arrays and numbers that take no function. What builds a text or an array
longer than the one it starts from is charged before it is built.

* `TextMethod`, `ArrayMethod`, `NumberMethod`: the methods, by name;
* `TextMethod.run`, `ArrayMethod.run`, `NumberMethod.value`: what they give.
-/

namespace LiveNotes.Script

open Number

/-! ### Texts -/

/-- The methods of a text. -/
inductive TextMethod where
  | upper | lower | trim | trimStart | trimEnd | text
  | includes | startsWith | endsWith | indexOf
  | slice | charAt | item | split | replace | replaceAll | repeat | padStart | padEnd | concat
deriving DecidableEq

/-- The method of a name. -/
def TextMethod.ofName? (name : String) : Option TextMethod :=
  match name with
  | "toUpperCase" => some .upper
  | "toLowerCase" => some .lower
  | "trim" => some .trim
  | "trimStart" => some .trimStart
  | "trimEnd" => some .trimEnd
  | "toString" | "valueOf" => some .text
  | "includes" => some .includes
  | "startsWith" => some .startsWith
  | "endsWith" => some .endsWith
  | "indexOf" => some .indexOf
  | "slice" => some .slice
  | "charAt" => some .charAt
  | "at" => some .item
  | "split" => some .split
  | "replace" => some .replace
  | "replaceAll" => some .replaceAll
  | "repeat" => some .repeat
  | "padStart" => some .padStart
  | "padEnd" => some .padEnd
  | "concat" => some .concat
  | _ => none

/-- Characters as a text value. -/
def textValue (s : List Char) : Value := .string (.ofList s)

/-- An argument as a text; one that is not given is empty. -/
def argText (args : List Value) (i : Nat) : List Char :=
  (args[i]?.elim "" Value.toText).toList

/-- A position as a value, -1 for none. -/
def positionValue (i : Option Nat) : Value :=
  match i with
  | some i => .integer (Int64.ofNat i)
  | none => .integer (-1)

/-- The first `n` characters of a text repeated without end. -/
def fill (pad : List Char) (n : Nat) : List Char :=
  ((List.replicate (n / pad.length + 1) pad).flatten).take n

/-- The characters to add to a text of some length up to a target, from the arguments of a padding
method: the target, and the text to pad with. -/
def padding (args : List Value) (length : Nat) : Nat × List Char :=
  let target := (args[0]?.elim 0 Value.toWhole).toInt.toNat
  let pad := match args[1]? with
    | none | some .null => [' ']
    | some v => v.toText.toList
  if target ≤ length || pad.isEmpty then (0, []) else (target - length, pad)

/-- The padding is charged and built. -/
def pad (limit : Nat) (args : List Value) (length : Nat) : Run (List Char) := do
  let (n, text) := padding args length
  charge limit n
  return fill text n

/-- The parts of a text between the occurrences of another; an empty one stands between all
characters. -/
def parts (sep s : List Char) : List (List Char) :=
  if sep.isEmpty then s.map ([·]) else Text.splitAll sep s

/-- What a method of a text gives. -/
def TextMethod.run (limit : Nat) (string : String) (args : List Value) : TextMethod → Run Value
  | .upper => return textValue (Text.upper string.toList)
  | .lower => return textValue (Text.lower string.toList)
  | .trim => return textValue (Text.trim string.toList)
  | .trimStart => return textValue (Text.trimStart string.toList)
  | .trimEnd => return textValue (Text.trimEnd string.toList)
  | .text => return .string string
  | .includes => return .boolean (Text.occursIn (argText args 0) string.toList)
  | .startsWith => return .boolean ((argText args 0).isPrefixOf string.toList)
  | .endsWith => return .boolean ((argText args 0).isSuffixOf string.toList)
  | .indexOf => return positionValue (Text.indexOf? (argText args 0) string.toList)
  | .slice => return textValue (cutOut string.toList (span args string.length))
  | .charAt =>
    return textValue (((offset? args[0]?).bind fun i => string.toList[i]?).toList)
  | .item =>
    return match (position? args[0]? string.length).bind fun i => string.toList[i]? with
      | some c => textValue [c]
      | none => .null
  | .split =>
    match args.head? with
    | none | some .null => return .array [.string string]
    | some sep => do
      let found := parts sep.toText.toList string.toList
      charge limit found.length
      return .array (found.map textValue)
  | .replace => return textValue (Text.replaceFirst (argText args 0) (argText args 1) string.toList)
  | .replaceAll => return textValue (Text.replaceAll (argText args 0) (argText args 1) string.toList)
  | .repeat => do
    let count := args[0]?.elim 0 Value.toWhole
    if count.toInt < 0 then fault (.repeatCount count)
    else
      let n := count.toInt.toNat
      charge limit (n * string.length)
      return textValue (if string.isEmpty then [] else (List.replicate n string.toList).flatten)
  | .padStart => return textValue ((← pad limit args string.length) ++ string.toList)
  | .padEnd => return textValue (string.toList ++ (← pad limit args string.length))
  | .concat => do
    let joined := args.foldl (fun s v => s ++ v.toText) string
    charge limit joined.utf8ByteSize
    return .string joined

/-! ### Arrays -/

/-- The methods of an array. -/
inductive ArrayMethod where
  | join | text | includes | indexOf | slice | concat | reverse | item
deriving DecidableEq

/-- The method of a name. -/
def ArrayMethod.ofName? (name : String) : Option ArrayMethod :=
  match name with
  | "join" => some .join
  | "toString" => some .text
  | "includes" => some .includes
  | "indexOf" => some .indexOf
  | "slice" => some .slice
  | "concat" => some .concat
  | "reverse" => some .reverse
  | "at" => some .item
  | _ => none

/-- The texts of items with a separator between them, charged before they are joined. -/
def joinItems (limit : Nat) (sep : String) (items : List Value) : Run Value := do
  let texts := Value.itemTexts [] items
  let size := texts.foldl (fun n s => n + s.utf8ByteSize) 0
  charge limit (size + sep.utf8ByteSize * (texts.length - 1))
  return .string (String.intercalate sep texts)

/-- The weight of all values together, if none of them nests too deeply. -/
def totalWeight? (values : List Value) : Option Nat :=
  values.foldl (fun total v => total.bind fun n => (weight? 0 v).map (n + ·)) (some 0)

/-- Items with further values behind them; an array among these gives its items. -/
def appended (items args : List Value) : List Value :=
  items ++ args.flatMap fun v => match v with
    | .array more => more
    | v => [v]

/-- What a method of an array gives. -/
def ArrayMethod.run (limit : Nat) (items args : List Value) : ArrayMethod → Run Value
  | .join =>
    match args.head? with
    | none | some .null => joinItems limit "," items
    | some sep => joinItems limit sep.toText items
  | .text => joinItems limit "," items
  | .includes => return .boolean (items.any fun v => v.strictEq (args[0]?.getD .null))
  | .indexOf => return positionValue (items.findIdx? fun v => v.strictEq (args[0]?.getD .null))
  | .slice => do
    let cut := cutOut items (span args items.length)
    chargeCopy limit (.array cut)
    return .array cut
  | .concat =>
    match totalWeight? (.array items :: args) with
    | some w => do
      charge limit w
      return .array (appended items args)
    | none => throw .nestingTooDeep
  | .reverse => do
    chargeCopy limit (.array items)
    return .array items.reverse
  | .item =>
    return ((position? args[0]? items.length).bind fun i => items[i]?).getD .null

/-! ### Numbers -/

/-- The methods of a number. -/
inductive NumberMethod where
  | toFixed | text
deriving DecidableEq

/-- The method of a name. -/
def NumberMethod.ofName? (name : String) : Option NumberMethod :=
  match name with
  | "toFixed" => some .toFixed
  | "toString" | "valueOf" => some .text
  | _ => none

/-- What a method of a number gives. -/
def NumberMethod.value (number : Value) (args : List Value) : NumberMethod → Value
  | .toFixed =>
    let places := (args[0]?.elim 0 Value.toWhole).toInt
    .string (fixed number.toNumber (min places.toNat 100))
  | .text => .string number.toText

end LiveNotes.Script
