import LiveNotes.Number.Shortest

/-!
Texts of doubles.

* `plain`: the fewest digits that read back, always positional, no point in a whole number;
* `labelled`: the same with at least one digit behind the point, and an exponent for very small and
  very large numbers, as error messages show numbers;
* `keyed`: the form of a number that is used as a name;
* `fixed`: a given number of digits behind the point, a half to the even neighbour.
-/

namespace LiveNotes.Number

/-- The decimal digits of a number. -/
def decimalDigits (n : Nat) : List Char := Nat.toDigits 10 n

/-- A row of zeros. -/
def zeros (n : Nat) : List Char := List.replicate n '0'

/-- `digits * 10 ^ exponent` written out, with at least `places` digits behind the point. -/
def positional (n : Numeral) (places : Nat) : List Char :=
  let ds := decimalDigits n.digits
  let whole := ds.length + n.exponent
  let (front, back) :=
    if 0 ≤ n.exponent then (ds ++ zeros n.exponent.toNat, [])
    else if 0 < whole then (ds.take whole.toNat, ds.drop whole.toNat)
    else (['0'], zeros (-whole).toNat ++ ds)
  let back := back ++ zeros (places - back.length)
  if back.isEmpty then front else front ++ '.' :: back

/-- `digits * 10 ^ exponent` with one digit before the point and a power of ten. -/
def scientific (n : Numeral) : List Char :=
  let ds := decimalDigits n.digits
  let power := ds.length - 1 + n.exponent
  let front := match ds with
    | [] => ['0']
    | [d] => [d]
    | d :: rest => d :: '.' :: rest
  front ++ 'e' :: (toString power).toList

/-- A text with a minus sign in front if asked for. -/
def signed (negative : Bool) (s : List Char) : String :=
  .ofList (if negative then '-' :: s else s)

/-- The digits of a finite double; zero has one digit. -/
def numeralOf (tie : Tie) (d : Dyadic) : Numeral :=
  if d.mantissa = 0 then ⟨0, 0⟩ else Shortest.digits tie d.mantissa d.exponent

/-- The text of a double by a rule for finite ones and the names of the others. -/
def textBy (finite : Dyadic → String) (nan infinity : String) (x : Float) : String :=
  match Double.decode? x with
  | some d => finite d
  | none => if x.isNaN then nan else if x < 0.0 then "-" ++ infinity else infinity

/-- The fewest digits that read back, positional. -/
def plain : Float → String :=
  textBy (fun d => signed d.negative (positional (numeralOf .larger d) 0)) "NaN" "Infinity"

/-- The text of a number in an error message: an exponent below `0.0001` and from `10 ^ 16` on. -/
def labelled : Float → String :=
  textBy (fun d =>
    let n := numeralOf .larger d
    let whole := (decimalDigits n.digits).length + n.exponent
    signed d.negative
      (if n.digits ≠ 0 ∧ (whole < -3 ∨ 16 < whole) then scientific n else positional n 1))
    "NaN" "inf"

/-- The text of a number used as a name: an exponent below `0.00001` and from `10 ^ 16` on.
Of two equally short and near texts it is the one with the even last digit. -/
def keyed : Float → String :=
  textBy (fun d =>
    let n := numeralOf .even d
    let whole := (decimalDigits n.digits).length + n.exponent
    signed d.negative
      (if n.digits ≠ 0 ∧ (whole < -4 ∨ 16 < whole) then scientific n else positional n 1))
    ".nan" ".inf"

/-- A double with `places` digits behind the point. -/
def fixed (x : Float) (places : Nat) : String :=
  match Double.decode? x with
  | none => plain x
  | some d =>
    let (n, q) := Double.shifted (d.mantissa * tenTo places) 1 d.exponent
    let ds := decimalDigits (roundEven n q)
    let ds := zeros (places + 1 - ds.length) ++ ds
    let whole := ds.length - places
    signed d.negative
      (if places = 0 then ds else ds.take whole ++ '.' :: ds.drop whole)

end LiveNotes.Number
