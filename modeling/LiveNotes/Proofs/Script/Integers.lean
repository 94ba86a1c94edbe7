import Mathlib.Data.List.TakeWhile
import LiveNotes.Proofs.Number.Digits
import LiveNotes.Proofs.Script.Costs
import LiveNotes.Proofs.Script.Expressions
import LiveNotes.Proofs.Script.Lexemes
import LiveNotes.Proofs.Script.RoundTrip

/-!
Integers that are written and read again. In each place the sign is read first and the digits behind it
by themselves, so the one integer whose size is none comes back as a double.

* `SignOf`, `IsRadix`: the signs that an integer can have, the radix that is asked for;
* `IsRadix.readInteger`: what is read of a sign and digits, whatever stands around them;
* `compile_integerText`: the function whose text is that of an integer;
* `integer_of_text`: every integer but the least comes back.
-/

namespace LiveNotes.Script

open Number Text

/-! ### Signs and sizes -/

/-- A sign that can stand before the size of an integer, and whether it is a minus. -/
inductive SignOf (n : Int) : List Char → Bool → Prop where
  | none (h : 0 ≤ n) : SignOf n [] false
  | plus (h : 0 ≤ n) : SignOf n ['+'] false
  | minus (h : n ≤ 0) : SignOf n ['-'] true

section Sizes

variable {n : Int64} {sign : List Char} {negative : Bool}

/-- The size of an integer is one, except for that of the least. -/
theorem fit?_natAbs (h : n ≠ Int64.minValue) :
    fit? n.toInt.natAbs = some (if n.toInt < 0 then -n else n) := by
  have hne : n.toInt ≠ -2 ^ 63 := fun he => h (Int64.toInt_inj.1 (he.trans Int64.toInt_minValue.symm))
  have hlow := Int64.le_toInt n
  have hhigh := Int64.toInt_lt n
  rw [fit?_eq_some]
  split
  · rw [Int64.toInt_neg, Int.bmod_eq_of_le] <;> omega
  · omega

theorem fit?_natAbs_least : fit? Int64.minValue.toInt.natAbs = none := by decide

/-- With its sign the size of an integer is the integer. -/
theorem SignOf.signed_size (h : SignOf n.toInt sign negative) :
    let size := if n.toInt < 0 then -n else n
    (if negative then -size else size) = n := by
  intro size
  cases h with
  | none h | plus h => exact if_neg (Int.not_lt.2 h)
  | minus h =>
    rw [if_pos rfl]
    by_cases hn : n.toInt < 0
    · exact (congrArg Neg.neg (if_pos hn)).trans Int64.neg_neg
    · have hzero : n = 0 := Int64.toInt_inj.1 (Int.le_antisymm h (Int.not_lt.1 hn))
      rw [show size = n from if_neg hn, hzero, Int64.neg_zero]

end Sizes

/-! ### Radixes -/

/-- The radix that is asked for by a number; zero asks for ten. -/
structure IsRadix (radix : Int64) (base : Nat) : Prop where
  asked : radix.toInt = base ∨ radix = 0 ∧ base = 10
  two_le : 2 ≤ base
  le_largest : base ≤ 36

section Radixes

variable {radix : Int64} {base : Nat}

theorem IsRadix.orTen (h : IsRadix radix base) : (if radix = 0 then 10 else radix.toInt) = base := by
  obtain ⟨hasked | ⟨rfl, rfl⟩, h2, -⟩ := h
  · rw [if_neg, hasked]
    rintro rfl
    rw [Int64.toInt_zero] at hasked
    omega
  · rfl

/-- A radix above sixteen is asked for by itself, and goes with no prefix. -/
theorem IsRadix.toInt_of_large (h : IsRadix radix base) (hl : 33 ≤ base) : radix.toInt = base := by
  rcases h.asked with hasked | ⟨-, hten⟩
  · exact hasked
  · omega

theorem IsRadix.not_prefixed (h : IsRadix radix base) (hl : 33 ≤ base) : ¬ (radix = 0 ∨ radix = 16) := by
  have htoInt := h.toInt_of_large hl
  rintro (rfl | rfl)
  · change (0 : Int) = base at htoInt
    omega
  · change (16 : Int) = base at htoInt
    omega

theorem isRadix_ofNat (h2 : 2 ≤ base) (h36 : base ≤ 36) : IsRadix (Int64.ofNat base) base :=
  ⟨.inl (Int64.toInt_ofNat_of_lt (by omega)), h2, h36⟩

theorem isRadix_none : IsRadix 0 10 := ⟨.inr ⟨rfl, rfl⟩, by decide, by decide⟩

end Radixes

/-! ### Texts -/

section Texts

variable {base m : Nat} {n : Int} {negative : Bool} {blanks sign ds rest : List Char}

/-- The first digit is neither a sign nor blank. -/
theorem exists_first (h : DigitsOf base ds m) : ∃ c cs, ds = c :: cs ∧ c.isAlphanum = true := by
  obtain ⟨c, cs, rfl⟩ := List.exists_cons_of_ne_nil h.ne_nil
  obtain ⟨d, hd⟩ := Option.isSome_iff_exists.1 (h.digits c List.mem_cons_self)
  exact ⟨c, cs, rfl, isAlphanum_of_digit? hd⟩

theorem takeSign_of_isAlphanum {c : Char} (hc : c.isAlphanum = true) (s : List Char) :
    takeSign (c :: s) = (false, c :: s) := by
  refine takeSign.eq_3 _ ?_ ?_
  · rintro s h
    cases h
    cases hc
  · rintro s h
    cases h
    cases hc

theorem SignOf.takeSign_append (hs : SignOf n sign negative) (hds : DigitsOf base ds m) (rest : List Char) :
    takeSign (sign ++ (ds ++ rest)) = (negative, ds ++ rest) := by
  cases hs with
  | minus | plus => rfl
  | none =>
    obtain ⟨c, cs, rfl, hc⟩ := exists_first hds
    exact takeSign_of_isAlphanum hc _

/-- Blanks in front are taken away, and the end is trimmed only behind the digits. -/
theorem SignOf.trim (hs : SignOf n sign negative) (hds : DigitsOf base ds m) (hb : allBlank blanks = true)
    (rest : List Char) :
    Text.trim (blanks ++ (sign ++ (ds ++ rest))) = sign ++ (ds ++ trimEnd rest) := by
  have hstart : trimStart (sign ++ (ds ++ rest)) = sign ++ (ds ++ rest) := by
    cases hs with
    | minus | plus => exact trimStart_cons rfl _
    | none =>
      obtain ⟨c, cs, rfl, hc⟩ := exists_first hds
      exact trimStart_cons (isBlank_of_isAlphanum hc) _
  obtain ⟨ds, c, rfl⟩ := List.eq_nil_or_concat ds |>.resolve_left hds.ne_nil
  obtain ⟨d, hd⟩ := Option.isSome_iff_exists.1 (hds.digits c (by simp))
  have hend := trimEnd_append_cons (isBlank_of_isAlphanum (isAlphanum_of_digit? hd)) (sign ++ ds) rest
  rw [Text.trim, trimStart_append hb, hstart]
  simpa using hend

/-- A letter that stands second behind a zero is a digit, so an `x` stands there in large radixes only. -/
theorem large_of_second (hds : DigitsOf base ds m) (hrest : ∀ c ∈ rest.head?, c.isAlphanum = false)
    {c : Char} {s : List Char} (hc : c.isAlphanum = true) (hx : digit? 33 c = none)
    (h : ds ++ rest = '0' :: c :: s) : 33 ≤ base := by
  have hmem : c ∈ ds := by
    cases ds with
    | nil => exact absurd rfl hds.ne_nil
    | cons d ds =>
      rw [List.cons_append, List.cons.injEq] at h
      cases ds with
      | nil =>
        obtain rfl : rest = c :: s := h.2
        exact absurd hc (Bool.eq_false_iff.1 (hrest c rfl))
      | cons e ds =>
        obtain rfl : e = c := (List.cons.inj h.2).1
        simp
  obtain ⟨d, hd⟩ := Option.isSome_iff_exists.1 (hds.digits c hmem)
  by_contra hlt
  rw [digit?_of_lt hd ((lt_of_digit? hd).trans (Nat.not_le.1 hlt))] at hx
  cases hx

/-- What is trimmed away at the end leaves the character at the start. -/
theorem head?_trimEnd {c : Char} (h : c ∈ (trimEnd rest).head?) : c ∈ rest.head? := by
  obtain ⟨b, -, hb⟩ := exists_trimEnd rest
  rw [hb, List.head?_append, h]
  rfl

/-- The digits are what is taken of the rest of the text, and there are some. -/
theorem takeDigits_trimmed (hds : DigitsOf base ds m) (hrest : ∀ c ∈ (trimEnd rest).head?, c.isAlphanum = false) :
    takeDigits base (ds ++ trimEnd rest) = takeDigits base ds ∧ (takeDigits base ds).isEmpty = false := by
  refine ⟨takeDigits_append hds.digits fun c hc => ?_, ?_⟩
  · refine Option.eq_none_iff_forall_ne_some.2 fun d hd => ?_
    exact Bool.eq_false_iff.1 (hrest c hc) (isAlphanum_of_digit? hd)
  · obtain ⟨c, cs, rfl, -⟩ := exists_first hds
    obtain ⟨d, hd⟩ := Option.isSome_iff_exists.1 (hds.digits c List.mem_cons_self)
    rw [takeDigits_cons hd]
    rfl

/-- What is read of a sign and digits behind blanks: the size, if it is an integer, with the sign. -/
theorem IsRadix.readInteger {radix : Int64} (hr : IsRadix radix base) (hb : allBlank blanks = true)
    (hs : SignOf n sign negative) (hds : DigitsOf base ds m)
    (hrest : ∀ c ∈ rest.head?, c.isAlphanum = false) :
    readInteger (blanks ++ (sign ++ (ds ++ rest))) radix =
      match fit? m with
      | some size => .integer (if negative then -size else size)
      | none => .float (if negative then -radixFloat base (takeDigits base ds)
        else radixFloat base (takeDigits base ds)) := by
  have hrest : ∀ c ∈ (trimEnd rest).head?, c.isAlphanum = false := fun c hc => hrest c (head?_trimEnd hc)
  obtain ⟨htake, hne⟩ := takeDigits_trimmed hds hrest
  have hrange : ¬ ((base : Int) < 2 ∨ 36 < (base : Int)) := by
    have := hr.two_le
    have := hr.le_largest
    omega
  unfold Script.readInteger
  rw [hs.trim hds hb rest, hs.takeSign_append hds]
  dsimp only
  -- there is no prefix, unless as digits of a radix that goes with none
  split
  · next h =>
    have hlarge := large_of_second hds hrest rfl rfl h
    rw [if_neg (hr.not_prefixed hlarge), hr.toInt_of_large hlarge]
    simp only [if_neg hrange, Int.toNat_natCast, htake, hne, hds.value]
    rfl
  · next h =>
    have hlarge := large_of_second hds hrest rfl rfl h
    rw [if_neg (hr.not_prefixed hlarge), hr.toInt_of_large hlarge]
    simp only [if_neg hrange, Int.toNat_natCast, htake, hne, hds.value]
    rfl
  · rw [hr.orTen]
    simp only [if_neg hrange, Int.toNat_natCast, htake, hne, hds.value]
    rfl

end Texts

section Values

variable {n : Int64} {negative : Bool}

/-- Except for the least, every integer is read from a sign and its size in a radix. -/
theorem IsRadix.readInteger_eq_iff {radix : Int64} {base : Nat} {blanks sign ds rest : List Char}
    (hr : IsRadix radix base) (hb : allBlank blanks = true) (hs : SignOf n.toInt sign negative)
    (hds : DigitsOf base ds n.toInt.natAbs) (hrest : ∀ c ∈ rest.head?, c.isAlphanum = false) :
    Script.readInteger (blanks ++ (sign ++ (ds ++ rest))) radix = .integer n ↔ n ≠ Int64.minValue := by
  rw [hr.readInteger hb hs hds hrest]
  constructor
  · rintro h rfl
    rw [fit?_natAbs_least] at h
    cases h
  · intro h
    rw [fit?_natAbs h]
    exact congrArg Value.integer hs.signed_size

/-- The sign in the text of an integer. -/
def textSign (negative : Bool) : List Char := if negative then ['-'] else []

theorem signOf_textSign (n : Int) : SignOf n (textSign (decide (n < 0))) (decide (n < 0)) := by
  by_cases h : n < 0
  · rw [decide_eq_true h]
    exact .minus h.le
  · rw [decide_eq_false h]
    exact .none (Int.not_lt.1 h)

theorem integerText_toList (n : Int64) :
    (integerText n).toList = textSign (decide (n.toInt < 0)) ++ Nat.toDigits 10 n.toInt.natAbs :=
  intRepr_toList n.toInt

theorem readInteger_integerText (n : Int64) :
    readInteger (integerText n).toList 0 = .integer n ↔ n ≠ Int64.minValue := by
  have h : readInteger ([] ++ (textSign (decide (n.toInt < 0)) ++ (Nat.toDigits 10 n.toInt.natAbs ++ []))) 0 =
      .integer n ↔ n ≠ Int64.minValue :=
    isRadix_none.readInteger_eq_iff rfl (signOf_textSign n.toInt) (digitsOf_toDigits n.toInt.natAbs) nofun
  rwa [List.nil_append, List.append_nil, ← integerText_toList] at h

end Values

/-! ### Literals -/

section Literals

theorem isAlphanum_of_isDigit {c : Char} (hc : c.isDigit = true) : c.isAlphanum = true := by
  rw [Char.isAlphanum, hc, Bool.or_true]

variable {ds : List Char} {t : Token} (hds : ∀ c ∈ ds, c.isDigit = true)
include hds

theorem exists_readDecimal? (hne : ds ≠ []) : ∃ x, readDecimal? ds = some x := by
  have hsign : takeSign ds = (false, ds) := by
    obtain ⟨c, cs, rfl⟩ := List.exists_cons_of_ne_nil hne
    exact takeSign_of_isAlphanum (isAlphanum_of_isDigit (hds c List.mem_cons_self)) cs
  have hspan : ds.span Char.isDigit = (ds, []) := by
    rw [List.span_eq_takeWhile_dropWhile, List.takeWhile_eq_self_iff.2 hds, List.dropWhile_eq_nil_iff.2 hds]
  unfold readDecimal?
  rw [hsign]
  dsimp only
  rw [hspan]
  simp [takeFraction, readExponent?, hne]

/-- Digits are a whole number if their value is one, else a double. -/
theorem exists_numberToken (hne : ds ≠ []) : ∃ x, numberToken? false ds =
    match fit? (digitsValue ds) with
    | some n => some (.integer n)
    | none => some (.float x) := by
  obtain ⟨x, hx⟩ := exists_readDecimal? hds hne
  refine ⟨x, ?_⟩
  unfold numberToken?
  rw [hx, if_neg Bool.false_ne_true]
  rfl

/-- Digits at the end of a text are a number. -/
theorem lexeme_digits (hne : ds ≠ []) (ht : numberToken? false ds = some t) : Lexeme [] ds t := by
  obtain ⟨c, cs, rfl⟩ := List.exists_cons_of_ne_nil hne
  exact .number (hds c List.mem_cons_self) (.of_digits hds false) (numeralEnds_nil false) ht

/-- The tokens of a function without parameters that gives a number. -/
theorem tokenize_number (hne : ds ≠ []) (ht : numberToken? false ds = some t) (negative : Bool) :
    ∃ ts, tokenize (.ofList ("() => ".toList ++ (textSign negative ++ ds))) = .ok ts ∧
      ts.map Prod.fst = .symbol .lParen :: .symbol .rParen :: .symbol .arrow ::
        ((if negative then [.symbol .minus] else []) ++ [t, .eof]) := by
  obtain ⟨c, cs, hcs, hstart, hnext⟩ := (lexeme_digits hds hne ht).next?_eq
  have hgap (p : Nat) : skipGap .blank p ds = ⟨p, c :: cs⟩ := by
    rw [← List.append_nil ds, hcs, skipGap_token hstart]
  have hnumber (done : List (Token × Nat)) {src : Source} {p : Nat}
      (hsrc : skipGap .blank src.position src.rest = skipGap .blank p ds) :
      tokensFrom done src = .ok (done.reverse ++ [(t, p), (.eof, p + ds.length)]) := by
    rw [tokensFrom_token (hsrc.trans (hgap p)) (hnext p), tokensFrom_end rfl]
    simp
  unfold tokenize
  rw [String.toList_ofList]
  change ∃ ts, tokensFrom [] ⟨0, '(' :: ')' :: ' ' :: '=' :: '>' :: ' ' :: (textSign negative ++ ds)⟩ = _ ∧ _
  rw [tokensFrom_token (p := 0) (c := '(') rfl rfl, tokensFrom_token (p := 1) (c := ')') rfl rfl,
    tokensFrom_token (p := 3) (c := '=') rfl rfl]
  cases negative with
  | false =>
    refine ⟨_, hnumber _ (p := 6) rfl, ?_⟩
    rfl
  | true =>
    rw [tokensFrom_token (p := 6) (c := '-') rfl rfl]
    refine ⟨_, hnumber _ (p := 7) rfl, ?_⟩
    rfl

end Literals

/-! ### Functions -/

/-- A small function is compiled from the tokens of its print. -/
theorem compile_of_print {code : String} {ts : List (Token × Nat)} {f : Lambda} (hts : tokenize code = .ok ts)
    (hkinds : ts.map Prod.fst = (Expr.function f.params f.body).print ++ [.eof])
    (hn : (Expr.function f.params f.body).nodes ≤ 40) : compile code = .ok f := by
  obtain ⟨k, hk, hr⟩ := (Expr.function f.params f.body).printed.expression [.eof] rfl
  rw [← hkinds] at hr
  have hparsed := parseExpression_of_reads hts hr rfl (by
    unfold maxDepth
    omega)
  rw [compile, parseFunction_of_expression hparsed]

/-- A number as it is written behind a sign is read as a literal, of an integer if it is one. -/
def sizeLiteral (x : Float) (size : Nat) : Expr :=
  match fit? size with
  | some n => .integer n
  | none => .float x

/-- An expression with a minus in front of it or not. -/
def signedExpr (negative : Bool) (e : Expr) : Expr := if negative then .unary .negate e else e

/-- The function that gives a number with its sign. -/
theorem compile_integerText (n : Int64) : ∃ x, compile ("() => " ++ integerText n) =
    .ok ⟨[], .expr (signedExpr (decide (n.toInt < 0)) (sizeLiteral x n.toInt.natAbs))⟩ := by
  have htext : "() => " ++ integerText n =
      .ofList ("() => ".toList ++ (textSign (decide (n.toInt < 0)) ++ Nat.toDigits 10 n.toInt.natAbs)) := by
    rw [← integerText_toList, ← String.toList_append, String.ofList_toList]
  have hds : ∀ c ∈ Nat.toDigits 10 n.toInt.natAbs, c.isDigit = true :=
    fun _ => Nat.isDigit_of_mem_toDigits (by decide) (by decide)
  have hvalue : digitsValue (Nat.toDigits 10 n.toInt.natAbs) = n.toInt.natAbs := Nat.ofDigitChars_ten_toDigits
  obtain ⟨x, hx⟩ := exists_numberToken hds Nat.toDigits_ne_nil
  rw [hvalue] at hx
  refine ⟨x, ?_⟩
  rw [htext]
  generalize decide (n.toInt < 0) = negative
  unfold sizeLiteral
  cases hfit : fit? n.toInt.natAbs with
  | some | none =>
    rw [hfit] at hx
    obtain ⟨ts, hts, hkinds⟩ := tokenize_number hds Nat.toDigits_ne_nil hx negative
    refine compile_of_print hts (hkinds.trans ?_) ?_
    · cases negative <;> rfl
    · cases negative <;> simp [signedExpr, Expr.nodes, Body.nodes]

/-- What a literal gives with a minus in front of it or not. -/
def signedValue (negative : Bool) (v : Value) : Value := if negative then v.negate else v

theorem invoke_signed {limit : Nat} (h3 : 3 ≤ limit) (hl : limit ≤ stepCap) {e : Expr} {v : Value}
    (he : Costs limit (eval limit e) 1 v) (negative : Bool) :
    invoke limit ⟨[], .expr (signedExpr negative e)⟩ [] = .ok (signedValue negative v) := by
  cases negative with
  | false => exact invoke_of_costs hl he rfl (by omega)
  | true => exact invoke_of_costs hl (he.unary hl .negate) rfl h3

/-- The size of an integer with its sign, as literals give it. -/
theorem signedValue_integer {n size : Int64} (h : fit? n.toInt.natAbs = some size) :
    signedValue (decide (n.toInt < 0)) (.integer size) = .integer n := by
  have hsize := fit?_eq_some.1 h
  by_cases hn : n.toInt < 0
  · have hneg : fit? (-size.toInt) = some n := fit?_eq_some.2 (by omega)
    rw [decide_eq_true hn]
    change Value.negate (.integer size) = _
    unfold Value.negate
    dsimp only
    rw [hneg]
  · have heq : size = n := Int64.toInt_inj.1 (by omega)
    rw [decide_eq_false hn, heq]
    rfl

/-- The function gives the integer, unless its size is none. -/
theorem invoke_integer {limit : Nat} (h3 : 3 ≤ limit) (hl : limit ≤ stepCap) (n : Int64) (x : Float) :
    invoke limit ⟨[], .expr (signedExpr (decide (n.toInt < 0)) (sizeLiteral x n.toInt.natAbs))⟩ [] =
      .ok (.integer n) ↔ n ≠ Int64.minValue := by
  unfold sizeLiteral
  constructor
  · rintro h rfl
    rw [fit?_natAbs_least] at h
    have hfloat := invoke_signed h3 hl (costs_literal hl (e := .float x) (v := .float x) (by rw [eval])) true
    cases hfloat.symm.trans h
  · intro hn
    obtain ⟨size, hfit⟩ : ∃ size, fit? n.toInt.natAbs = some size := ⟨_, fit?_natAbs hn⟩
    rw [hfit]
    have hvalue := invoke_signed h3 hl (costs_literal hl (e := .integer size) (v := .integer size) (by rw [eval]))
      (decide (n.toInt < 0))
    exact hvalue.trans (congrArg Except.ok (signedValue_integer hfit))

/-! ### Integers as texts -/

/-- `parseInt(String(x))` gives back the integer that `x` has, unless that is the least. -/
theorem hasValue_parseInt_string {frames : List Frame} {x : Expr} {n : Int64}
    (hx : HasValue frames x (.integer n)) (hparse : Unbound frames "parseInt")
    (hstring : Unbound frames "String") :
    HasValue frames (.call "parseInt" [.call "String" [x]]) (.integer n) ↔ n ≠ Int64.minValue := by
  have htext : HasValue frames (.call "String" [x]) (.string (integerText n)) :=
    .call (g := .string) (.cons hx .nil) hstring rfl
  have hread : HasValue frames (.call "parseInt" [.call "String" [x]]) (readInteger (integerText n).toList 0) :=
    .call (g := .parseInt) (.cons htext .nil) hparse rfl
  rw [← readInteger_integerText]
  exact ⟨fun h => hread.unique h, fun h => h ▸ hread⟩

/-- Every integer but the least comes back from its text: as a function that gives it, read again from
its text, and read from any sign and digits for it in any radix. -/
theorem integer_of_text (n : Int64) :
    (∃ f, compile ("() => " ++ integerText n) = .ok f ∧ ∀ limit, 3 ≤ limit → limit ≤ stepCap →
      (invoke limit f [] = .ok (.integer n) ↔ n ≠ Int64.minValue)) ∧
    (∀ frames x, HasValue frames x (.integer n) → Unbound frames "parseInt" → Unbound frames "String" →
      (HasValue frames (.call "parseInt" [.call "String" [x]]) (.integer n) ↔ n ≠ Int64.minValue)) ∧
    ∀ (radix : Nat) (blanks sign ds rest : List Char) (negative : Bool), 2 ≤ radix → radix ≤ 36 →
      allBlank blanks = true → SignOf n.toInt sign negative → DigitsOf radix ds n.toInt.natAbs →
      (∀ c ∈ rest.head?, c.isAlphanum = false) →
      (readInteger (blanks ++ (sign ++ (ds ++ rest))) (Int64.ofNat radix) = .integer n ↔
        n ≠ Int64.minValue) := by
  refine ⟨?_, fun frames x => hasValue_parseInt_string,
    fun radix blanks sign ds rest negative h2 h36 hb hs hds hrest => ?_⟩
  · obtain ⟨x, hcode⟩ := compile_integerText n
    exact ⟨_, hcode, fun limit h3 hl => invoke_integer h3 hl n x⟩
  · exact (isRadix_ofNat h2 h36).readInteger_eq_iff hb hs hds hrest

/-- The integer above the least, from the text of a function and with letters as digits. -/
theorem integer_of_text_lowest :
    (∃ f, compile "() => -9223372036854775807" = .ok f ∧
      invoke defaultLimit f [] = .ok (.integer (-9223372036854775807))) ∧
    HasValue [] (.call "parseInt" [.call "String" [.integer (-9223372036854775807)]])
      (.integer (-9223372036854775807)) ∧
    readInteger "\t -1Y2p0ij32e8e7, 5".toList 36 = .integer (-9223372036854775807) := by
  have hne : (-9223372036854775807 : Int64) ≠ Int64.minValue := by decide
  obtain ⟨⟨f, hf, hvalue⟩, hstring, hread⟩ := integer_of_text (-9223372036854775807)
  refine ⟨⟨f, hf, (hvalue defaultLimit (by decide) (by decide)).2 hne⟩, ?_, ?_⟩
  · exact (hstring [] _ (hasValue_integer _) rfl rfl).2 hne
  · have hds : DigitsOf 36 "1Y2p0ij32e8e7".toList (-9223372036854775807 : Int64).toInt.natAbs :=
      ⟨by decide, List.all_eq_true.1 (by decide), by decide +kernel⟩
    have hbehind : ∀ c ∈ ", 5".toList.head?, c.isAlphanum = false := by
      rintro c ⟨⟩
      rfl
    exact (hread 36 "\t ".toList ['-'] _ ", 5".toList true (by decide) (by decide) rfl (.minus (by decide)) hds
      hbehind).2 hne

/-- The least integer comes back from none of its texts. -/
theorem least_integer_of_text :
    (∃ f, compile "() => -9223372036854775808" = .ok f ∧
      invoke defaultLimit f [] ≠ .ok (.integer Int64.minValue)) ∧
    ¬ HasValue [] (.call "parseInt" [.call "String" [.integer Int64.minValue]]) (.integer Int64.minValue) ∧
    readInteger "-8000000000000000".toList 16 ≠ .integer Int64.minValue := by
  refine ⟨?_, ?_, ?_⟩
  · obtain ⟨x, hf⟩ := compile_integerText Int64.minValue
    exact ⟨_, hf, fun h => (invoke_integer (by decide) (by decide) Int64.minValue x).1 h rfl⟩
  · have hleast : HasValue [] (.integer Int64.minValue) (.integer Int64.minValue) := hasValue_integer _
    exact fun h => (hasValue_parseInt_string hleast rfl rfl).1 h rfl
  · have hds : DigitsOf 16 "8000000000000000".toList Int64.minValue.toInt.natAbs :=
      ⟨by decide, List.all_eq_true.1 (by decide), by decide +kernel⟩
    have hread : readInteger ([] ++ (['-'] ++ ("8000000000000000".toList ++ []))) 16 = .integer Int64.minValue ↔
        Int64.minValue ≠ Int64.minValue :=
      (isRadix_ofNat (by decide) (by decide)).readInteger_eq_iff rfl (.minus (by decide)) hds nofun
    exact fun h => hread.1 h rfl

end LiveNotes.Script
