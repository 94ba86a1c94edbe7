import LiveNotes.Proofs.Number.Scan
import LiveNotes.Proofs.Script.NumericTexts
import LiveNotes.Script.Method

/-!
No position leaves its range. The operations that fail when they are given a position out of range, a byte
inside a character or a radix that has no digits are written here as partial functions, and what is built
from them is never without a result.

* `Checked.slice?`, `Checked.withRadix`: operations that can fail, with `cutAt?` and the items of a list;
* `Checked.readInteger`, `Checked.readLeading`, `Checked.readNumber`: numbers in texts, found by their bytes;
* `Checked.textMethod`, `Checked.arrayMethod`: the methods of texts and arrays;
* `in_range`: they all have the results of the operations that cannot fail.
-/

namespace LiveNotes.Script

open Number Text

namespace Checked

/-! ### Operations that can fail -/

/-- The items between two positions, which have to lie in order within the list. -/
def slice? {α : Type} (items : List α) (bounds : Nat × Nat) : Option (List α) :=
  if bounds.1 ≤ bounds.2 ∧ bounds.2 ≤ items.length then some (cutOut items bounds) else none

/-- What an operation on digits gives; it fails in other radixes than those from 2 to 36. -/
def withRadix {α : Type} (radix : Int) (result : α) : Option α :=
  if 2 ≤ radix ∧ radix ≤ 36 then some result else none

/-! ### Numbers in texts -/

/-- Whether a character is a digit of a radix. -/
def isDigitOf (radix : Int) (c : Char) : Bool := (digit? radix.toNat c).isSome

/-- The byte where the digits of a radix end, some bytes having been passed. -/
def digitsEnd? (radix : Int) (passed : Nat) : List Char → Option Nat
  | [] => some passed
  | c :: s => do
    let more ← withRadix radix (isDigitOf radix c)
    if more then digitsEnd? radix (passed + c.utf8Size) s else some passed

/-- The whole number of 64 bits that digits stand for, if there is one. -/
def integerOf? (radix : Int) (ds : List Char) : Option (Option Int64) :=
  withRadix radix ((readRadix? radix.toNat ds).bind fit?)

/-- The double that digits give, one after the other. -/
def floatOf? (radix : Int) (ds : List Char) : Option Float :=
  ds.foldlM (fun x c => do
    match ← withRadix radix (digit? radix.toNat c) with
    | some d => some (x * radix.toNat.toFloat + d.toFloat)
    | none => some x) 0.0

/-- The number of the digits behind a sign and a prefix. -/
def unsigned? (negative : Bool) (radix : Int) (s : List Char) : Option Value :=
  if radix < 2 ∨ 36 < radix then some (.float Double.nan)
  else do
    let last ← digitsEnd? radix 0 s
    let (ds, _) ← cutAt? last s
    if ds.isEmpty then some (.float Double.nan)
    else
      match ← integerOf? radix ds with
      | some m => some (.integer (if negative then -m else m))
      | none => do
        let x ← floatOf? radix ds
        some (.float (if negative then -x else x))

/-- The whole number at the start of a text. -/
def readInteger (s : List Char) (radix : Int64) : Option Value :=
  let (negative, s) := takeSign (trim s)
  let (radix, s) : Int × List Char :=
    match s with
    | '0' :: 'x' :: hex | '0' :: 'X' :: hex =>
      if radix = 0 ∨ radix = 16 then (16, hex) else (radix.toInt, s)
    | s => (if radix = 0 then 10 else radix.toInt, s)
  unsigned? negative radix s

/-- The double of the longest numeral at the start of a text, which is found by its bytes. -/
def readLeading (s : List Char) : Option (Option Float) :=
  let s := trimStart s
  let starts (word : String) : Bool := word.toList.isPrefixOf s
  if starts "Infinity" || starts "+Infinity" then some (some Double.infinity)
  else if starts "-Infinity" then some (some (-Double.infinity))
  else
    match numeralEnd? (utf8 s) with
    | none => some none
    | some last => do
      let (numeral, _) ← cutAt? last s
      some (readDecimal? numeral)

/-- A text as a number; two bytes are cut off in front of hexadecimal digits. -/
def readNumber (s : List Char) : Option (Option Float) :=
  match trim s with
  | [] => some (some 0.0)
  | '0' :: 'x' :: _ | '0' :: 'X' :: _ => do
    let (_, hex) ← cutAt? 2 (trim s)
    let n ← integerOf? 16 hex
    some (n.map Double.ofInteger)
  | s =>
    if s = "Infinity".toList ∨ s = "+Infinity".toList then some (some Double.infinity)
    else if s = "-Infinity".toList then some (some (-Double.infinity))
    else some (readDecimal? s)

/-! ### Methods -/

/-- The position of the first occurrence of a text, whose characters before the byte are counted. -/
def place? (part s : List Char) : Option (Option Nat) :=
  match (cut? part s).map fun found => bytes found.1 with
  | none => some none
  | some byte => do
    let (before, _) ← cutAt? byte s
    some (some before.length)

/-- What a method of a text gives. -/
def textMethod (limit : Nat) (string : String) (args : List Value) : TextMethod → Option (Run Value)
  | .indexOf => do
    let place ← place? (argText args 0) string.toList
    some (return positionValue place)
  | .slice => do
    let cut ← slice? string.toList (span args string.length)
    some (return textValue cut)
  | .item =>
    match position? args[0]? string.length with
    | none => some (return .null)
    | some i => do
      let c ← string.toList[i]?
      some (return textValue [c])
  | method => some (method.run limit string args)

/-- What a method of an array gives. -/
def arrayMethod (limit : Nat) (items args : List Value) : ArrayMethod → Option (Run Value)
  | .slice => do
    let cut ← slice? items (span args items.length)
    some do
      chargeCopy limit (.array cut)
      return .array cut
  | .item =>
    match position? args[0]? items.length with
    | none => some (return .null)
    | some i => do
      let item ← items[i]?
      some (return item)
  | method => some (method.run limit items args)

/-! ### No operation fails -/

section Digits

variable {radix : Int} {s ds : List Char}

theorem withRadix_eq {α : Type} (hr : 2 ≤ radix ∧ radix ≤ 36) (result : α) : withRadix radix result = some result :=
  if_pos hr

/-- The digits end behind the last of them. -/
theorem digitsEnd?_eq (hr : 2 ≤ radix ∧ radix ≤ 36) (passed : Nat) (s : List Char) :
    digitsEnd? radix passed s = some (passed + bytes (s.takeWhile (isDigitOf radix))) := by
  induction s generalizing passed with
  | nil => rfl
  | cons c s ih =>
    rw [digitsEnd?, withRadix_eq hr, Option.bind_eq_bind, Option.bind_some]
    by_cases hc : isDigitOf radix c = true
    · rw [if_pos hc, ih, List.takeWhile_cons_of_pos hc, bytes_cons, Nat.add_assoc]
    · rw [if_neg hc, List.takeWhile_cons_of_neg hc, bytes_nil, Nat.add_zero]

theorem floatOf?_eq (hr : 2 ≤ radix ∧ radix ≤ 36) (hds : ∀ c ∈ ds, isDigitOf radix c = true) :
    floatOf? radix ds = some (radixFloat radix.toNat (takeDigits radix.toNat ds)) := by
  unfold floatOf? radixFloat
  generalize (0.0 : Float) = x
  induction ds generalizing x with
  | nil => rfl
  | cons c ds ih =>
    obtain ⟨hc, hds⟩ := List.forall_mem_cons.1 hds
    obtain ⟨d, hd⟩ := Option.isSome_iff_exists.1 hc
    rw [List.foldlM_cons, takeDigits_cons hd, List.foldl_cons, ← ih hds, withRadix_eq hr, hd]
    rfl

theorem integerOf?_eq (hr : 2 ≤ radix ∧ radix ≤ 36) (hne : ds ≠ []) (hds : ∀ c ∈ ds, isDigitOf radix c = true) :
    integerOf? radix ds = some (fit? (radixValue radix.toNat (takeDigits radix.toNat ds) : Nat)) := by
  have hread : readRadix? radix.toNat ds = some ((radixValue radix.toNat (takeDigits radix.toNat ds) : Nat) : Int) :=
    readRadix?_eq_some_iff.2 ⟨false, [], ds, _, .absent, ⟨hne, hds, rfl⟩, rfl, rfl⟩
  rw [integerOf?, withRadix_eq hr, hread]
  rfl

/-- The digits that the scan has found are those that are read. -/
theorem takeDigits_takeWhile (radix : Int) (s : List Char) :
    takeDigits radix.toNat (s.takeWhile (isDigitOf radix)) = takeDigits radix.toNat s := by
  have hd : ∀ c ∈ s.takeWhile (isDigitOf radix), isDigitOf radix c = true := fun c hc => List.mem_takeWhile_imp hc
  have hrest : ∀ c ∈ (s.dropWhile (isDigitOf radix)).head?, digit? radix.toNat c = none := by
    intro c hc
    have := List.head?_dropWhile_not (isDigitOf radix) s
    rw [hc] at this
    exact Option.not_isSome_iff_eq_none.1 (by simpa [isDigitOf] using this)
  rw [← takeDigits_append hd hrest, List.takeWhile_append_dropWhile]

theorem takeDigits_eq_nil_iff (hds : ∀ c ∈ ds, isDigitOf radix c = true) :
    takeDigits radix.toNat ds = [] ↔ ds = [] := by
  cases ds with
  | nil => exact iff_of_true rfl rfl
  | cons c ds =>
    obtain ⟨d, hd⟩ := Option.isSome_iff_exists.1 (hds c List.mem_cons_self)
    rw [takeDigits_cons hd]
    simp

theorem unsigned?_eq (negative : Bool) (radix : Int) (s : List Char) : unsigned? negative radix s =
    some (if radix < 2 ∨ 36 < radix then .float Double.nan
      else
        let ds := takeDigits radix.toNat s
        if ds.isEmpty then .float Double.nan
        else
          let n : Int := radixValue radix.toNat ds
          match fit? n with
          | some m => .integer (if negative then -m else m)
          | none =>
            let x := radixFloat radix.toNat ds
            .float (if negative then -x else x)) := by
  unfold unsigned?
  by_cases hout : radix < 2 ∨ 36 < radix
  · rw [if_pos hout, if_pos hout]
  · have hr : 2 ≤ radix ∧ radix ≤ 36 := by omega
    have hds : ∀ c ∈ s.takeWhile (isDigitOf radix), isDigitOf radix c = true := fun c hc => List.mem_takeWhile_imp hc
    have hcut := cutAt?_append (s.takeWhile (isDigitOf radix)) (s.dropWhile (isDigitOf radix))
    rw [List.takeWhile_append_dropWhile] at hcut
    rw [if_neg hout, if_neg hout, digitsEnd?_eq hr, Nat.zero_add, Option.bind_eq_bind, Option.bind_some, hcut,
      Option.bind_eq_bind, Option.bind_some]
    dsimp only
    rw [← takeDigits_takeWhile radix s]
    by_cases hne : s.takeWhile (isDigitOf radix) = []
    · rw [hne]
      rfl
    · have hne' : ¬ (takeDigits radix.toNat (s.takeWhile (isDigitOf radix))).isEmpty = true := by
        rw [List.isEmpty_iff, takeDigits_eq_nil_iff hds]
        exact hne
      rw [if_neg hne', if_neg (by rwa [List.isEmpty_iff]), integerOf?_eq hr hne hds, Option.bind_eq_bind, Option.bind_some]
      cases fit? (radixValue radix.toNat (takeDigits radix.toNat (s.takeWhile (isDigitOf radix))) : Nat) with
      | some m => rfl
      | none =>
        dsimp only
        rw [floatOf?_eq hr hds]
        rfl

end Digits

theorem readInteger_eq (s : List Char) (radix : Int64) : readInteger s radix = some (Script.readInteger s radix) := by
  unfold readInteger Script.readInteger
  dsimp only
  exact unsigned?_eq _ _ _

theorem readLeading_eq (s : List Char) : readLeading s = some (readLeading? s) := by
  have hscan (s : List Char) : (match numeralEnd? (utf8 s) with
      | none => some none
      | some last => do
        let (numeral, _) ← cutAt? last s
        some (readDecimal? numeral)) = some ((takeNumeral? s).bind readDecimal?) := by
    rw [numeralEnd?_utf8]
    cases h : takeNumeral? s with
    | none => rfl
    | some numeral =>
      obtain ⟨rest, rfl⟩ := takeNumeral?_prefix h
      rw [Option.map_some]
      dsimp only
      rw [cutAt?_append]
      rfl
  unfold readLeading readLeading?
  dsimp only
  rw [hscan, ← apply_ite some, ← apply_ite some]

theorem readNumber_eq (s : List Char) : readNumber s = some (readNumber? s) := by
  have hhexadecimal {x : Char} {hex : List Char} (hx : x = 'x' ∨ x = 'X') : (do
      let (_, hex) ← cutAt? 2 ('0' :: x :: hex)
      let n ← integerOf? 16 hex
      some (n.map Double.ofInteger)) = some (((readRadix? 16 hex).bind fit?).map Double.ofInteger) := by
    have hcut : cutAt? 2 ('0' :: x :: hex) = some (['0', x], hex) := by
      rcases hx with rfl | rfl
      · exact cutAt?_append ['0', 'x'] hex
      · exact cutAt?_append ['0', 'X'] hex
    rw [hcut]
    rfl
  unfold readNumber
  split
  · next hblank =>
    unfold readNumber?
    rw [hblank]
  · next hlower =>
    rw [hlower, readNumber?_hexadecimal (.inl rfl) hlower]
    exact hhexadecimal (.inl rfl)
  · next hupper =>
    rw [hupper, readNumber?_hexadecimal (.inr rfl) hupper]
    exact hhexadecimal (.inr rfl)
  · next hblank hlower hupper =>
    have hplain : ∀ x hex, x = 'x' ∨ x = 'X' → trim s ≠ '0' :: x :: hex := by
      rintro x hex (rfl | rfl)
      · exact hlower hex
      · exact hupper hex
    rw [readNumber?_plain hblank hplain, apply_ite some, apply_ite some]

theorem slice?_span {α : Type} (items : List α) (args : List Value) :
    slice? items (span args items.length) = some (cutOut items (span args items.length)) :=
  if_pos (span_le args items.length)

theorem lt_of_position? {v : Option Value} {length i : Nat} (h : position? v length = some i) : i < length := by
  unfold position? at h
  obtain ⟨-, hlt⟩ := Option.filter_eq_some_iff.1 h
  simpa using hlt

theorem place?_eq (part s : List Char) : place? part s = some (indexOf? part s) := by
  unfold place? indexOf?
  cases h : cut? part s with
  | none => rfl
  | some found =>
    obtain ⟨before, behind⟩ := found
    rw [Option.map_some]
    dsimp only
    rw [cut?_eq_some h, List.append_assoc, cutAt?_append]
    rfl

theorem textMethod_eq (limit : Nat) (string : String) (args : List Value) (method : TextMethod) :
    textMethod limit string args method = some (method.run limit string args) := by
  cases method with
  | indexOf =>
    rw [textMethod, place?_eq]
    rfl
  | slice =>
    rw [textMethod, ← String.length_toList, slice?_span]
    rfl
  | item =>
    rw [textMethod, TextMethod.run]
    cases h : position? args[0]? string.length with
    | none => rfl
    | some i =>
      have hi := lt_of_position? h
      rw [← String.length_toList] at hi
      dsimp only
      rw [Option.bind_some, List.getElem?_eq_getElem hi]
      rfl
  | _ => rfl

theorem arrayMethod_eq (limit : Nat) (items args : List Value) (method : ArrayMethod) :
    arrayMethod limit items args method = some (method.run limit items args) := by
  cases method with
  | slice =>
    rw [arrayMethod, slice?_span]
    rfl
  | item =>
    rw [arrayMethod, ArrayMethod.run]
    cases h : position? args[0]? items.length with
    | none => rfl
    | some i =>
      dsimp only
      rw [Option.bind_some, List.getElem?_eq_getElem (lt_of_position? h)]
      rfl
  | _ => rfl

end Checked

/-- The bounds of slices and the positions of items lie within the length, and no operation on the bytes, the
items and the digits of a text or an array fails: numbers are read from every text in every radix, and methods
give what they give, whatever their arguments are. -/
theorem in_range (string : String) (items args : List Value) (v : Option Value) (length limit : Nat) (radix : Int64)
    (m : TextMethod) (n : ArrayMethod) :
    ((span args length).1 ≤ (span args length).2 ∧ (span args length).2 ≤ length) ∧
      (∀ i ∈ position? v length, i < length) ∧
      Checked.readInteger string.toList radix = some (readInteger string.toList radix) ∧
      Checked.readLeading string.toList = some (readLeading? string.toList) ∧
      Checked.readNumber string.toList = some (readNumber? string.toList) ∧
      Checked.textMethod limit string args m = some (m.run limit string args) ∧
      Checked.arrayMethod limit items args n = some (n.run limit items args) := by
  refine ⟨span_le args length, fun i hi => Checked.lt_of_position? hi, ?_⟩
  exact ⟨Checked.readInteger_eq _ _, Checked.readLeading_eq _, Checked.readNumber_eq _, Checked.textMethod_eq _ _ _ _,
    Checked.arrayMethod_eq _ _ _ _⟩

end LiveNotes.Script
