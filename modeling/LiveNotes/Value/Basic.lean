import LiveNotes.Entries
import LiveNotes.Number.Double
import LiveNotes.Number.Integer

/-!
Property values: the values that front matter holds, queries compute and scripts work on. Whole
numbers and doubles are told apart; objects keep the order in which their names came.

* `Value.beq`: equality of two values, in which doubles compare as numbers and objects compare
  without regard to order;
* `Value.WellFormed`: every object in the value has each name once;
* `Value.induction_parts`: induction over the parts of a value.
-/

namespace LiveNotes

open Number

/-- A property value. -/
inductive Value where
  | null
  | boolean (b : Bool)
  | integer (n : Int64)
  | float (x : Float)
  | string (s : String)
  | array (items : List Value)
  | object (entries : List (String × Value))
deriving Inhabited

/-- The properties of a document. -/
abbrev Properties := Entries Value

/-- The kinds of values that messages and type checks speak of. -/
inductive Kind where
  | null | boolean | number | string | array | object
deriving DecidableEq, Repr

/-- The word for a kind. -/
def Kind.word : Kind → String
  | .null => "null"
  | .boolean => "boolean"
  | .number => "number"
  | .string => "string"
  | .array => "array"
  | .object => "object"

namespace Value

/-- The kind of a value; whole numbers and doubles are both numbers. -/
def kind : Value → Kind
  | .null => .null
  | .boolean _ => .boolean
  | .integer _ | .float _ => .number
  | .string _ => .string
  | .array _ => .array
  | .object _ => .object

mutual

/-- Equality: doubles as numbers, so that NaN differs from itself and the zeros are equal; a whole
number never equals a double; objects without regard to order. -/
def beq : Value → Value → Bool
  | .null, .null => true
  | .boolean a, .boolean b => a == b
  | .integer a, .integer b => a == b
  | .float a, .float b => a == b
  | .string a, .string b => a == b
  | .array a, .array b => beqItems a b
  | .object a, .object b => a.length == b.length && beqEntries a b
  | _, _ => false

/-- Equality of two lists, item by item. -/
def beqItems : List Value → List Value → Bool
  | [], [] => true
  | a :: as, b :: bs => beq a b && beqItems as bs
  | _, _ => false

/-- Whether every entry is found, with an equal value, in the other entries. -/
def beqEntries : List (String × Value) → List (String × Value) → Bool
  | [], _ => true
  | (k, a) :: as, bs =>
    (match Entries.get? bs k with
    | some b => beq a b
    | none => false) && beqEntries as bs

end

instance : BEq Value := ⟨beq⟩

/-- Equality of two sets of properties, without regard to order. -/
def sameProperties (a b : Properties) : Bool := a.length == b.length && beqEntries a b

mutual

/-- Every object in the value has each name once. -/
def WellFormed : Value → Prop
  | .array items => WellFormedItems items
  | .object entries => (entries.map (·.1)).Nodup ∧ WellFormedEntries entries
  | _ => True

def WellFormedItems : List Value → Prop
  | [] => True
  | v :: vs => WellFormed v ∧ WellFormedItems vs

def WellFormedEntries : List (String × Value) → Prop
  | [] => True
  | (_, v) :: es => WellFormed v ∧ WellFormedEntries es

end

/-- Zero, NaN, the empty text, null and false do not count as true. -/
def isTruthy : Value → Bool
  | .null => false
  | .boolean b => b
  | .integer n => n != 0
  | .float x => x != 0.0 && !x.isNaN
  | .string s => !s.isEmpty
  | .array _ | .object _ => true

def isNumber : Value → Bool
  | .integer _ | .float _ => true
  | _ => false

/-- Arrays and objects, whose parts have paths of their own. -/
def isContainer : Value → Bool
  | .array _ | .object _ => true
  | _ => false

/-- The number as a double. -/
def asFloat? : Value → Option Float
  | .integer n => some (Double.ofInteger n)
  | .float x => some x
  | _ => none

/-- The number as a whole one, if it has no fraction; a double beyond 64 bits gives the bound. -/
def asInteger? : Value → Option Int64
  | .integer n => some n
  | .float x => if Double.isWhole x then some (Double.toInteger x) else none
  | _ => none

def asString? : Value → Option String
  | .string s => some s
  | _ => none

/-- Induction over the parts of a value. -/
theorem induction_parts {motive : Value → Prop}
    (scalar : ∀ v : Value, v.isContainer = false → motive v)
    (array : ∀ items, (∀ v ∈ items, motive v) → motive (.array items))
    (object : ∀ entries, (∀ e ∈ entries, motive e.2) → motive (.object entries)) (v : Value) :
    motive v :=
  match v with
  | .array items => array items fun v _ => induction_parts scalar array object v
  | .object entries => object entries fun e _ => induction_parts scalar array object e.2
  | .null | .boolean _ | .integer _ | .float _ | .string _ => scalar _ rfl
termination_by sizeOf v
decreasing_by
  · have := List.sizeOf_lt_of_mem ‹v ∈ items›
    simp only [Value.array.sizeOf_spec]
    omega
  · obtain ⟨k, w⟩ := e
    have := List.sizeOf_lt_of_mem ‹(k, w) ∈ entries›
    simp only [Prod.mk.sizeOf_spec] at this
    simp only [Value.object.sizeOf_spec]
    omega

theorem wellFormedItems_iff (vs : List Value) : WellFormedItems vs ↔ ∀ v ∈ vs, WellFormed v := by
  induction vs with
  | nil => simp [WellFormedItems]
  | cons v vs ih => simp [WellFormedItems, ih]

theorem wellFormedEntries_iff (es : List (String × Value)) :
    WellFormedEntries es ↔ ∀ e ∈ es, WellFormed e.2 := by
  induction es with
  | nil => simp [WellFormedEntries]
  | cons e es ih => obtain ⟨k, v⟩ := e; simp [WellFormedEntries, ih]

end Value

end LiveNotes
