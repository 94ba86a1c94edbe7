import LiveNotes.Script.Call
import LiveNotes.Proofs.Number.TextLength
import LiveNotes.Proofs.Script.ParserSound
import LiveNotes.Proofs.Script.Partition

/-!
The texts that a script carries with it: its string literals and the names of fields. All of them
stand in its source text, so they take no more bytes than that.

* `Expr.textBytes`: the bytes of the texts in an expression;
* `Token.textBytes`: those of the text that a token holds;
* `Reads.textBytes_le`, `tokenize_textBytes`: parsing and lexing make no text longer;
* `compile_textBytes`: the texts of a function in its source text.
-/

namespace LiveNotes.Script

open Number Text

/-! ### The texts of an expression -/

mutual

/-- The bytes of the string literals and of the field names in an expression. -/
def Expr.textBytes : Expr → Nat
  | .string s => s.utf8ByteSize
  | .member object _ => object.textBytes
  | .index object key => object.textBytes + key.textBytes
  | .unary _ operand => operand.textBytes
  | .binary _ left right => left.textBytes + right.textBytes
  | .conditional condition yes no => condition.textBytes + yes.textBytes + no.textBytes
  | .call _ args => textBytesOfAll args
  | .methodCall object _ args => object.textBytes + textBytesOfAll args
  | .function _ body => body.textBytes
  | .object fields => textBytesOfFields fields
  | .array items => textBytesOfAll items
  | _ => 0

/-- The bytes of the texts in the body of a function. -/
def Body.textBytes : Body → Nat
  | .expr e => e.textBytes
  | .block statements => textBytesOfBlock statements

/-- The bytes of the texts in a statement. -/
def Statement.textBytes : Statement → Nat
  | .declare _ value => value.textBytes
  | .give value => value.textBytes
  | .expression e => e.textBytes

/-- The bytes of the texts in some expressions. -/
def textBytesOfAll : List Expr → Nat
  | [] => 0
  | e :: es => e.textBytes + textBytesOfAll es

/-- The bytes of the names of some fields and of the texts in their values. -/
def textBytesOfFields : List (String × Expr) → Nat
  | [] => 0
  | (name, e) :: fields => name.utf8ByteSize + e.textBytes + textBytesOfFields fields

/-- The bytes of the texts in some statements. -/
def textBytesOfBlock : List Statement → Nat
  | [] => 0
  | s :: ss => s.textBytes + textBytesOfBlock ss

end

/-! ### Parsing -/

/-- The bytes of the text that a token can give to an expression. -/
def Token.textBytes : Token → Nat
  | .string s => s.utf8ByteSize
  | .identifier name => name.utf8ByteSize
  | .integer n => (integerText n).utf8ByteSize
  | _ => 0

/-- The bytes of the texts that tokens can give. -/
def tokenBytes (ts : List Token) : Nat := (ts.map Token.textBytes).sum

@[simp] theorem tokenBytes_nil : tokenBytes [] = 0 := rfl

@[simp] theorem tokenBytes_cons (t : Token) (ts : List Token) :
    tokenBytes (t :: ts) = t.textBytes + tokenBytes ts := rfl

@[simp] theorem tokenBytes_append (ts us : List Token) :
    tokenBytes (ts ++ us) = tokenBytes ts + tokenBytes us := by
  simp [tokenBytes]

/-- The bytes of the texts in what is read, those of an expression on the left included. -/
def Goal.textBytes : (g : Goal) → g.Result → Nat
  | .expression, x | .functionTail, x | .conditional, x | .level _, x | .chain _ _, x | .unary, x
  | .operand, x | .links _, x | .fieldValue _, x | .atom, x => x.textBytes
  | .block, ss | .statements, ss => textBytesOfBlock ss
  | .statement, s => s.textBytes
  | .elements _, xs => textBytesOfAll xs
  | .fields, xs => textBytesOfFields xs

/-- The bytes of the texts in what stands on the left of what is read. -/
def Goal.leftBytes : Goal → Nat
  | .chain _ left => left.textBytes
  | .links x => x.textBytes
  | _ => 0

theorem tokenBytes_skipSemicolons (ts : List Token) : tokenBytes (skipSemicolons ts) ≤ tokenBytes ts := by
  fun_induction skipSemicolons ts with
  | case1 ts ih => exact Nat.le_trans ih (Nat.le_add_left _ _)
  | case2 => exact Nat.le_refl _

theorem tokenBytes_arrowHead {ts body : List Token} {params : List String} (h : ArrowHead ts params body) :
    tokenBytes body ≤ tokenBytes ts := by
  rcases h with ⟨name, -, rfl⟩ | rfl
  · simp only [tokenBytes_cons]
    omega
  · simp only [tokenBytes_cons, tokenBytes_append]
    omega

theorem textBytes_literal {t : Token} {x : Expr} (h : literal? t = some x) : x.textBytes ≤ t.textBytes := by
  cases t <;> cases h <;> simp [Expr.textBytes, Token.textBytes]

theorem textBytes_fieldName {t : Token} {name : String} (h : fieldName? t = some name) :
    name.utf8ByteSize = t.textBytes := by
  cases t <;> cases h <;> rfl

/-- Each text in what is read comes from a token of its own. -/
theorem Reads.textBytes_le {g : Goal} {ts rest : List Token} {x : g.Result} {k : Nat}
    (h : Reads g ts x rest k) : g.textBytes x + tokenBytes rest ≤ tokenBytes ts + g.leftBytes := by
  induction h with
  | arrowBlock ha _ ih =>
    have := tokenBytes_arrowHead ha
    simp only [Goal.textBytes, Goal.leftBytes, Expr.textBytes, Body.textBytes] at ih ⊢
    omega
  | arrowExpr ha _ _ ih =>
    have := tokenBytes_arrowHead ha
    simp only [Goal.textBytes, Goal.leftBytes, Expr.textBytes, Body.textBytes] at ih ⊢
    omega
  | @noStatement ts _ h =>
    have := tokenBytes_skipSemicolons ts
    rw [h, tokenBytes_cons] at this
    simp only [Goal.textBytes, Goal.leftBytes, textBytesOfBlock]
    omega
  | @oneStatement ts _ _ _ _ _ _ _ _ _ _ ih ih' =>
    have := tokenBytes_skipSemicolons ts
    simp only [Goal.textBytes, Goal.leftBytes, textBytesOfBlock] at ih ih' ⊢
    omega
  | literal h =>
    have := textBytes_literal h
    simp only [Goal.textBytes, Goal.leftBytes, tokenBytes_cons]
    omega
  | field hn _ _ ih ih' =>
    have := textBytes_fieldName hn
    simp only [Goal.textBytes, Goal.leftBytes, tokenBytes_cons, textBytesOfFields] at ih ih' ⊢
    omega
  | lastField hn _ ih =>
    have := textBytes_fieldName hn
    simp only [Goal.textBytes, Goal.leftBytes, tokenBytes_cons, textBytesOfFields] at ih ⊢
    omega
  | _ =>
    simp only [Goal.textBytes, Goal.leftBytes, Expr.textBytes, Body.textBytes, Statement.textBytes,
      textBytesOfAll, textBytesOfFields, tokenBytes_cons, tokenBytes_append] at *
    omega

/-! ### Lexing -/

/-- A word has a text only as a name, and that is the word. -/
theorem textBytes_ofWord (w : String) : (Token.ofWord w).textBytes ≤ w.utf8ByteSize := by
  unfold Token.ofWord
  repeat' split
  all_goals simp [Token.textBytes]

/-- An escape stands for one character of ASCII. -/
theorem utf8Size_unescape {e c : Char} (h : unescape? e = some c) : c.utf8Size = 1 := by
  unfold unescape? at h
  repeat' split at h
  all_goals cases h <;> try rfl
  next he => rcases he with rfl | rfl | rfl | rfl <;> rfl

theorem Escapes.bytes_le {quote : Char} {body content : List Char} (h : Escapes quote body content) :
    bytes content ≤ bytes body := by
  induction h with
  | nil => exact Nat.le_refl _
  | plain _ _ _ ih =>
    simp only [bytes_cons]
    omega
  | @escape e c body content he _ ih =>
    have hsize := utf8Size_unescape he
    have hpos := e.utf8Size_pos
    simp only [bytes_cons]
    omega

/-- A point or an exponent that came before stays. -/
theorem Numeral.float {float last : Bool} {w : List Char} (h : Numeral float w last) (hf : float = true) :
    last = true := by
  induction h with
  | nil => exact hf
  | digit _ _ ih => exact ih hf
  | point _ _ ih => exact ih rfl
  | exponent _ _ _ ih => exact ih rfl
  | signed _ _ _ _ ih => exact ih rfl

/-- A number without a point and an exponent is made of digits. -/
theorem Numeral.digits {float last : Bool} {w : List Char} (h : Numeral float w last) (hl : last = false) :
    ∀ c ∈ w, c.isDigit = true := by
  have hstays {w : List Char} (hw : Numeral true w last) : False := Bool.false_ne_true (hl ▸ hw.float rfl)
  induction h with
  | nil => exact nofun
  | digit hc _ ih => exact List.forall_mem_cons.2 ⟨hc, ih hl hstays⟩
  | point _ hw => exact (hstays hw).elim
  | exponent _ _ hw => exact (hstays hw).elim
  | signed _ _ _ hw => exact (hstays hw).elim

/-- Digits in a row stand for a number with no more digits. -/
theorem digitsValue_lt {ds : List Char} (h : ∀ c ∈ ds, c.isDigit = true) :
    digitsValue ds < tenTo ds.length := by
  induction ds with
  | nil => decide
  | cons c ds ih =>
    have := ih fun d hd => h d (List.mem_cons_of_mem _ hd)
    have digit : c.toNat - 48 ≤ 9 := by
      have hc := h c List.mem_cons_self
      simp only [Char.isDigit, Bool.and_eq_true, decide_eq_true_eq] at hc
      have := UInt32.le_iff_toNat_le.1 hc.2
      exact Nat.sub_le_of_le_add this
    unfold digitsValue at *
    rw [Nat.ofDigitChars_cons, Nat.ofDigitChars_eq_ofDigitChars_zero]
    change tenTo ds.length * (10 * 0 + (c.toNat - 48)) + _ < tenTo ds.length * 10
    have := Nat.mul_le_mul_left (tenTo ds.length) digit
    rw [Nat.mul_zero, Nat.zero_add]
    omega

theorem textBytes_numberToken {float : Bool} {text : List Char} {t : Token}
    (h : numberToken? float text = some t) (hne : text ≠ [])
    (hd : float = false → ∀ c ∈ text, c.isDigit = true) : t.textBytes ≤ bytes text := by
  unfold numberToken? at h
  split at h
  · next n hn =>
    cases h
    cases float with
    | true => cases hn
    | false =>
      have hv := fit?_eq_some.1 hn
      have hl := length_decimalDigits_le (List.length_pos_iff.2 hne) (digitsValue_lt (hd rfl))
      have hw := weight_decimalDigits (digitsValue text)
      calc (integerText n).utf8ByteSize
        _ = bytes (decimalDigits (digitsValue text)) := by
          rw [integerText, hv]
          exact utf8ByteSize_ofList _
        _ ≤ weight (decimalDigits (digitsValue text)) := bytes_le_weight _
        _ ≤ text.length := by omega
        _ ≤ bytes text := length_le_bytes text
  · obtain ⟨x, -, rfl⟩ := Option.map_eq_some_iff.1 h
    exact Nat.zero_le _

/-- The text of a token takes no more bytes than its characters. -/
theorem Lexeme.textBytes_le {rest w : List Char} {t : Token} (h : Lexeme rest w t) :
    t.textBytes ≤ bytes w := by
  cases h with
  | symbol => exact Nat.zero_le _
  | string _ hbody =>
    have hle := hbody.bytes_le
    simp only [Token.textBytes, utf8ByteSize_ofList, bytes_cons, bytes_append]
    omega
  | number _ hw _ ht => exact textBytes_numberToken ht (List.cons_ne_nil _ _) hw.digits
  | @word c w =>
    have hle := textBytes_ofWord (.ofList (c :: w))
    rwa [utf8ByteSize_ofList] at hle

/-- The texts of all tokens together take no more bytes than the text they are read from. -/
theorem Tokenized.textBytes_le {p : Nat} {s : List Char} {ts : List (Token × Nat)} (h : Tokenized p s ts) :
    tokenBytes (ts.map Prod.fst) ≤ bytes s := by
  induction h with
  | finish => simp [tokenBytes, Token.textBytes]
  | token _ hw _ ih =>
    have hle := hw.textBytes_le
    simp only [List.map_cons, tokenBytes_cons, bytes_append]
    omega

theorem tokenize_textBytes {text : String} {ts : List (Token × Nat)} (h : tokenize text = .ok ts) :
    tokenBytes (ts.map Prod.fst) ≤ text.utf8ByteSize := by
  have hle := (tokenize_eq_ok_iff_tokenized.1 h).textBytes_le
  rwa [bytes_toList] at hle

/-! ### Functions -/

/-- The texts that a function carries stand in its source text. -/
theorem compile_textBytes {code : String} {f : Lambda} (h : compile code = .ok f) :
    f.body.textBytes ≤ code.utf8ByteSize := by
  unfold compile at h
  split at h
  · next f hf =>
    cases h
    obtain ⟨ts, rest, k, hts, hr, -⟩ := parseExpression_reads (parseFunction_ok hf)
    have := hr.textBytes_le
    have := tokenize_textBytes hts
    simp only [Goal.textBytes, Goal.leftBytes, Expr.textBytes] at *
    omega
  · cases h

end LiveNotes.Script
