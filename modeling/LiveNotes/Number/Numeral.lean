import LiveNotes.Number.Double

/-!
Reading decimal numerals: an optional sign, digits with an optional point among or around them, and
an optional exponent. At least one digit stands before the exponent and one inside it.
-/

namespace LiveNotes.Number

/-- The number that decimal digits stand for. -/
def digitsValue (ds : List Char) : Nat := Nat.ofDigitChars 10 ds 0

/-- A sign at the start, and whether it is a minus. -/
def takeSign : List Char → Bool × List Char
  | '-' :: s => (true, s)
  | '+' :: s => (false, s)
  | s => (false, s)

/-- The exponent at the end of a numeral; none written is zero. -/
def readExponent? : List Char → Option Int
  | [] => some 0
  | c :: s =>
    if c = 'e' ∨ c = 'E' then
      let (negative, ds) := takeSign s
      if ds.isEmpty || !ds.all Char.isDigit then none
      else
        let n : Int := min (digitsValue ds) 1000000
        some (if negative then -n else n)
    else none

/-- A point and the digits behind it. -/
def takeFraction : List Char → List Char × List Char
  | '.' :: s => s.span Char.isDigit
  | s => ([], s)

/-- The double nearest to a decimal numeral. -/
def readDecimal? (s : List Char) : Option Float :=
  let (negative, s) := takeSign s
  let (whole, s) := s.span Char.isDigit
  let (fraction, s) := takeFraction s
  if whole.isEmpty && fraction.isEmpty then none
  else
    (readExponent? s).map fun e =>
      let x := Double.ofDecimal (digitsValue (whole ++ fraction)) (e - fraction.length)
      if negative then -x else x

/-- The value of a digit or letter as a digit of a radix. -/
def digit? (radix : Nat) (c : Char) : Option Nat :=
  let n := c.toNat
  let value :=
    if 48 ≤ n ∧ n ≤ 57 then n - 48
    else if 97 ≤ n ∧ n ≤ 122 then n - 87
    else if 65 ≤ n ∧ n ≤ 90 then n - 55
    else radix
  if value < radix then some value else none

/-- The digits of a radix at the start of a text. -/
def takeDigits (radix : Nat) (s : List Char) : List Nat :=
  match s with
  | [] => []
  | c :: s => match digit? radix c with
    | some d => d :: takeDigits radix s
    | none => []

/-- The number that digits of a radix stand for. -/
def radixValue (radix : Nat) (ds : List Nat) : Nat := ds.foldl (fun n d => n * radix + d) 0

/-- The double that digits of a radix give when they are taken in one after the other. -/
def radixFloat (radix : Nat) (ds : List Nat) : Float :=
  ds.foldl (fun x d => x * radix.toFloat + d.toFloat) 0.0

/-- A numeral of a radix, perhaps with a sign, nothing else around it. -/
def readRadix? (radix : Nat) (s : List Char) : Option Int :=
  let (negative, s) := takeSign s
  if s.isEmpty || !s.all fun c => (digit? radix c).isSome then none
  else
    let n : Int := radixValue radix (takeDigits radix s)
    some (if negative then -n else n)

/-- The exponent at the start of a text: a letter, perhaps a sign, and digits. -/
def takeExponent : List Char → List Char
  | [] => []
  | e :: s =>
    if e = 'e' ∨ e = 'E' then
      let (sign, s) := s.span fun c => c == '+' || c == '-'
      let ds := s.takeWhile Char.isDigit
      if 1 < sign.length || ds.isEmpty then [] else e :: sign ++ ds
    else []

/-- The longest decimal numeral at the start of a text. -/
def takeNumeral? (s : List Char) : Option (List Char) :=
  let (sign, s) := match s with
    | '-' :: s => (['-'], s)
    | '+' :: s => (['+'], s)
    | s => ([], s)
  let (whole, s) := s.span Char.isDigit
  let (point, s) := match s with
    | '.' :: s => ('.' :: s.takeWhile Char.isDigit, s.dropWhile Char.isDigit)
    | s => ([], s)
  if whole.isEmpty && point.length ≤ 1 then none
  else some (sign ++ whole ++ point ++ takeExponent s)

/-- A natural number in decimal digits, nothing else around them. -/
def readNat? (s : List Char) : Option Nat :=
  if s.isEmpty || !s.all Char.isDigit then none else some (digitsValue s)

end LiveNotes.Number
