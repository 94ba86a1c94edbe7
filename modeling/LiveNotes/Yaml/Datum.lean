import LiveNotes.Number.Numeral
import LiveNotes.Number.Text
import LiveNotes.Value.Json

/-!
The data of YAML: what scalars and collections stand for, tags included.

* `Datum.ofPlain?`: what a plain scalar stands for;
* `Datum.ofScalar?`: what a scalar with a tag stands for;
* `Datum.beq`: when two data are the same key;
* `Datum.toValue`: a datum as a property value.
-/

namespace LiveNotes.Yaml

open Number

/-- What a YAML node stands for. -/
inductive Datum where
  | null
  | boolean (b : Bool)
  | integer (n : Int)
  | float (x : Float)
  | text (s : String)
  | sequence (items : List Datum)
  | mapping (entries : List (Datum × Datum))
  | tagged (tag : String) (d : Datum)
deriving Inhabited

/-! ### Scalars -/

/-- The truth value that a word is. -/
def boolean? (s : String) : Option Bool :=
  if s = "true" ∨ s = "True" ∨ s = "TRUE" then some true
  else if s = "false" ∨ s = "False" ∨ s = "FALSE" then some false
  else none

/-- Whether a word stands for null. -/
def isNullWord (s : String) : Bool := s == "null" || s == "Null" || s == "NULL" || s == "~"

/-- Whether a text is made of digits but, with zeros in front, is no number. -/
def hasLeadingZero (s : List Char) : Bool :=
  match (takeSign s).2 with
  | '0' :: d :: ds => (d :: ds).all Char.isDigit
  | _ => false

/-- The radix and the digits of a text that starts with the mark of a radix. -/
def takeRadix? (s : List Char) : Option (Nat × List Char) :=
  match s with
  | '0' :: 'x' :: ds => some (16, ds)
  | '0' :: 'o' :: ds => some (8, ds)
  | '0' :: 'b' :: ds => some (2, ds)
  | _ => none

/-- Digits of a radix and nothing else. -/
def readDigits? (radix : Nat) (ds : List Char) : Option Nat :=
  if ds.isEmpty || !ds.all fun c => (digit? radix c).isSome then none
  else some (radixValue radix (takeDigits radix ds))

/-- The natural number of digits, perhaps behind the mark of a radix. -/
def natural? (s : List Char) : Option Nat :=
  match takeRadix? s with
  | some (radix, ds) => readDigits? radix ds
  | none => if hasLeadingZero s then none else readDigits? 10 s

/-- The integer of a text, perhaps with a sign. -/
def integer? (s : List Char) : Option Int :=
  match s with
  | '-' :: s => (natural? s).map fun n => -(n : Int)
  | '+' :: s => (natural? s).map fun n => (n : Int)
  | s => (natural? s).map fun n => (n : Int)

/-- Integers that have a value. -/
def hasValue (n : Int) : Bool := -(twoTo 63 : Int) ≤ n && n < twoTo 64

/-- Integers beyond those with a value that are still taken for integers. -/
def isWide (n : Int) : Bool := -(twoTo 127 : Int) ≤ n && n < twoTo 128

/-- A text without a plus in front, behind which no other sign may stand. -/
def withoutPlus? (s : List Char) : Option (List Char) :=
  match s with
  | '+' :: '+' :: _ | '+' :: '-' :: _ => none
  | '+' :: s => some s
  | s => some s

/-- The double of a text: a decimal numeral that is not too large, or one of the marks of infinity
and of no number. -/
def float? (s : String) : Option Float :=
  if s = ".inf" ∨ s = ".Inf" ∨ s = ".INF" ∨ s = "+.inf" ∨ s = "+.Inf" ∨ s = "+.INF" then
    some Double.infinity
  else if s = "-.inf" ∨ s = "-.Inf" ∨ s = "-.INF" then some (-Double.infinity)
  else if s = ".nan" ∨ s = ".NaN" ∨ s = ".NAN" then some Double.nan
  else ((withoutPlus? s.toList).bind readDecimal?).filter Float.isFinite

namespace Datum

/-- What a plain scalar stands for; an integer too large for a value is a fault. -/
def ofPlain? (s : String) : Option Datum :=
  if s.isEmpty || isNullWord s then some .null
  else
    match boolean? s, integer? s.toList with
    | some b, _ => some (.boolean b)
    | none, some n =>
      if hasValue n then some (.integer n)
      else if isWide n then none
      else some (((float? s).map .float).getD (.text s))
    | none, none =>
      if hasLeadingZero s.toList then some (.text s)
      else some (((float? s).map .float).getD (.text s))

/-- What a scalar stands for without a tag. -/
def ofUntagged? (s : String) (plain : Bool) : Option Datum :=
  if plain then ofPlain? s else some (.text s)

/-- A tag of the application, without its mark. -/
def ownTag? (tag : Option String) : Option String :=
  match tag.map String.toList with
  | some ['!'] => some "!"
  | some ('!' :: name) => some (.ofList name)
  | _ => none

/-- A datum with the tag of the application that stands before it. -/
def withTag (tag : Option String) (d : Datum) : Datum :=
  match ownTag? tag with
  | some name => .tagged name d
  | none => d

/-- What a scalar stands for. The tags of YAML ask for a kind of datum, and for a text if the kind
is none of these. -/
def ofScalar? (tag : Option String) (s : String) (plain : Bool) : Option Datum :=
  match tag with
  | none => ofUntagged? s plain
  | some tag =>
    if (ownTag? (some tag)).isSome then (ofUntagged? s plain).map (withTag (some tag))
    else if tag = "tag:yaml.org,2002:bool" then (boolean? s).map .boolean
    else if tag = "tag:yaml.org,2002:int" then
      ((integer? s.toList).filter hasValue).map .integer
    else if tag = "tag:yaml.org,2002:float" then (float? s).map .float
    else if tag = "tag:yaml.org,2002:null" then if isNullWord s then some .null else none
    else some (.text s)

/-! ### Equality -/

/-- A tag without the mark in front, unless it is the mark alone. -/
def bareTag (tag : String) : String := (ownTag? (some tag)).getD tag

/-- The entry of a key. -/
def findEntry? (same : Datum → Bool) (entries : List (Datum × Datum)) : Option Datum :=
  (entries.find? fun e => same e.1).map (·.2)

mutual

/-- Sameness of data: all data that are no number are the same number, the entries of a mapping
have no order, and integers are not the same as doubles. -/
def beq : Datum → Datum → Bool
  | .null, .null => true
  | .boolean a, .boolean b => a == b
  | .integer a, .integer b => a == b
  | .float a, .float b => (a.isNaN && b.isNaN) || a == b
  | .text a, .text b => a == b
  | .sequence a, .sequence b => beqItems a b
  | .mapping a, .mapping b => a.length == b.length && beqEntries a b
  | .tagged s a, .tagged t b => bareTag s == bareTag t && beq a b
  | _, _ => false

/-- Sameness of items, one by one. -/
def beqItems : List Datum → List Datum → Bool
  | [], [] => true
  | a :: as, b :: bs => beq a b && beqItems as bs
  | _, _ => false

/-- Whether every entry is found in the other entries. -/
def beqEntries : List (Datum × Datum) → List (Datum × Datum) → Bool
  | [], _ => true
  | (k, v) :: es, bs =>
    (match findEntry? (beq k) bs with
    | some w => beq v w
    | none => false) && beqEntries es bs

end

/-! ### Values -/

/-- An integer as a value; from `2 ^ 63` on it is a double. -/
def integerValue (n : Int) : Value :=
  match fit? n with
  | some n => .integer n
  | none => .float (UInt64.ofNat n.toNat).toFloat

mutual

/-- A datum as a property value, without its tags. -/
def toValue : Datum → Value
  | .null => .null
  | .boolean b => .boolean b
  | .integer n => integerValue n
  | .float x => .float x
  | .text s => .string s
  | .sequence items => .array (itemValues items)
  | .mapping entries => .object (entryValues [] entries)
  | .tagged _ d => toValue d

/-- The values of items. -/
def itemValues : List Datum → List Value
  | [] => []
  | d :: ds => toValue d :: itemValues ds

/-- The entries of a mapping on top of those already there. -/
def entryValues (done : Entries Value) : List (Datum × Datum) → Entries Value
  | [] => done
  | (k, v) :: es => entryValues (done.insert (toName k) (toValue v)) es

/-- A key as a name: scalars as they are written, collections as JSON. -/
def toName : Datum → String
  | .null => "null"
  | .boolean b => if b then "true" else "false"
  | .integer n => n.repr
  | .float x => keyed x
  | .text s => s
  | .sequence items => (Value.array (itemValues items)).toJson
  | .mapping entries => (Value.object (entryValues [] entries)).toJson
  | .tagged _ d => toName d

end

end Datum

end LiveNotes.Yaml
