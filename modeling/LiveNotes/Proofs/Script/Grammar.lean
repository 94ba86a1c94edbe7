import LiveNotes.Script.Parser

/-!
The grammar that the parser reads, without positions, cursors and errors.

* `Reads g ts x rest k`: the tokens `ts` begin with an `x` of the kind `g`, `rest` stands behind it,
  and reading it goes `k` levels deep;
* `ArrowHead ts params body`: the tokens `ts` begin with parameters and an arrow, `body` behind them.

The rules take as much as they can: a chain of operators ends only before a token that is no operator
of its level, an expression in parentheses is one only if no arrow function begins there.
-/

namespace LiveNotes.Script

/-! ### Tokens that come next -/

/-- The first token. -/
def peek (ts : List Token) : Token := ts.headD .eof

/-- Tokens without the semicolons at their start. -/
def skipSemicolons : List Token → List Token
  | .symbol .semicolon :: ts => skipSemicolons ts
  | ts => ts

theorem skipSemicolons_of_peek {ts : List Token} (h : peek ts ≠ .symbol .semicolon) :
    skipSemicolons ts = ts := by
  rw [skipSemicolons.eq_def]
  split
  · exact absurd rfl h
  · rfl

/-- Names with commas between them. -/
def nameTokens : List String → List Token
  | [] => []
  | [name] => [.identifier name]
  | name :: names => .identifier name :: .symbol .comma :: nameTokens names

/-- A parameter list in parentheses. -/
def paramTokens (params : List String) : List Token :=
  .symbol .lParen :: (nameTokens params ++ [.symbol .rParen])

/-- Tokens that begin with the parameters of an arrow function and its arrow. -/
def ArrowHead (ts : List Token) (params : List String) (body : List Token) : Prop :=
  (∃ name, params = [name] ∧ ts = .identifier name :: .symbol .arrow :: body) ∨
    ts = paramTokens params ++ .symbol .arrow :: body

theorem arrowHead_paramTokens (params : List String) (body : List Token) :
    ArrowHead (paramTokens params ++ .symbol .arrow :: body) params body := .inr rfl

/-- Whether a token goes on with a member, an index or a call. -/
def Links (t : Token) : Prop := t = .symbol .dot ∨ t = .symbol .lBracket ∨ t = .symbol .lParen

/-- Whether a token ends an expression wherever it stands. -/
def closes : Token → Bool
  | .symbol .rParen | .symbol .rBracket | .symbol .rBrace | .symbol .comma | .symbol .colon
  | .symbol .semicolon | .eof => true
  | _ => false

section

variable {t : Token} (h : closes t = true)
include h

theorem not_links_of_closes : ¬ Links t := by
  rintro (rfl | rfl | rfl)
  all_goals cases h

theorem operatorAt?_of_closes (n : Nat) : operatorAt? n t = none := by
  cases ho : operatorAt? n t with
  | none => rfl
  | some op =>
    unfold operatorAt? at ho
    split at ho
    all_goals first | cases ho; done | cases h

theorem ne_of_closes {s : Token} (hs : closes s = false) : t ≠ s := by
  rintro rfl
  rw [h] at hs
  cases hs

end

/-! ### The grammar -/

/-- What can be read. -/
inductive Goal where
  | expression | functionTail | block | statements | statement | conditional
  | level (n : Nat)
  | chain (n : Nat) (left : Expr)
  | unary | operand
  | links (x : Expr)
  | elements (close : Symbol)
  | fields
  | fieldValue (name : String)
  | atom

/-- What reading gives. -/
@[reducible] def Goal.Result : Goal → Type
  | .block | .statements => List Statement
  | .statement => Statement
  | .elements _ => List Expr
  | .fields => List (String × Expr)
  | _ => Expr

/-- The tokens begin with something of a kind, other tokens stand behind it, and reading it goes so
many levels deep. -/
inductive Reads : (g : Goal) → List Token → g.Result → List Token → Nat → Prop where
  -- An expression is one level deeper than what it stands in.
  | wordFunction {ts rest : List Token} {x : Expr} {k : Nat} (h : Reads .functionTail ts x rest k) :
      Reads .expression (.functionWord :: ts) x rest (k + 1)
  | arrowBlock {ts body rest : List Token} {params : List String} {ss : List Statement} {k : Nat}
      (ha : ArrowHead ts params body) (h : Reads .block body ss rest k) :
      Reads .expression ts (.function params (.block ss)) rest (k + 1)
  | arrowExpr {ts body rest : List Token} {params : List String} {x : Expr} {k : Nat}
      (ha : ArrowHead ts params body) (hb : peek body ≠ .symbol .lBrace)
      (h : Reads .expression body x rest k) :
      Reads .expression ts (.function params (.expr x)) rest (k + 1)
  | noFunction {ts rest : List Token} {x : Expr} {k : Nat} (hw : peek ts ≠ .functionWord)
      (ha : ∀ params body, ¬ ArrowHead ts params body) (h : Reads .conditional ts x rest k) :
      Reads .expression ts x rest (k + 1)
  -- Functions written with their word, and blocks.
  | named {name : String} {params : List String} {ts rest : List Token} {ss : List Statement} {k : Nat}
      (h : Reads .block ts ss rest k) :
      Reads .functionTail (.identifier name :: (paramTokens params ++ ts))
        (.function params (.block ss)) rest k
  | nameless {params : List String} {ts rest : List Token} {ss : List Statement} {k : Nat}
      (h : Reads .block ts ss rest k) :
      Reads .functionTail (paramTokens params ++ ts) (.function params (.block ss)) rest k
  | braces {ts rest : List Token} {ss : List Statement} {k : Nat} (h : Reads .statements ts ss rest k) :
      Reads .block (.symbol .lBrace :: ts) ss rest k
  | noStatement {ts rest : List Token} (h : skipSemicolons ts = .symbol .rBrace :: rest) :
      Reads .statements ts [] rest 0
  | oneStatement {ts mid rest : List Token} {s : Statement} {ss : List Statement} {k k' : Nat}
      (hb : peek (skipSemicolons ts) ≠ .symbol .rBrace) (he : peek (skipSemicolons ts) ≠ .eof)
      (h : Reads .statement (skipSemicolons ts) s mid k) (h' : Reads .statements mid ss rest k') :
      Reads .statements ts (s :: ss) rest (max k k')
  | declare {name : String} {ts rest : List Token} {x : Expr} {k : Nat}
      (h : Reads .expression ts x rest k) :
      Reads .statement (.declareWord :: .identifier name :: .symbol .assign :: ts) (.declare name x)
        rest k
  | declareOnly {name : String} {rest : List Token} (h : peek rest ≠ .symbol .assign) :
      Reads .statement (.declareWord :: .identifier name :: rest) (.declare name .null) rest 0
  | giveNothing {rest : List Token} (h : endsReturn (peek rest) = true) :
      Reads .statement (.returnWord :: rest) (.give .null) rest 0
  | give {ts rest : List Token} {x : Expr} {k : Nat} (he : endsReturn (peek ts) = false)
      (h : Reads .expression ts x rest k) : Reads .statement (.returnWord :: ts) (.give x) rest k
  | bare {ts rest : List Token} {x : Expr} {k : Nat} (hd : peek ts ≠ .declareWord)
      (hr : peek ts ≠ .returnWord) (h : Reads .expression ts x rest k) :
      Reads .statement ts (.expression x) rest k
  -- Conditions and chains of operators.
  | unconditional {ts rest : List Token} {x : Expr} {k : Nat} (h : Reads (.level levels) ts x rest k)
      (hq : peek rest ≠ .symbol .question) : Reads .conditional ts x rest k
  | choice {ts ts' ts'' rest : List Token} {x yes no : Expr} {k k' k'' : Nat}
      (h : Reads (.level levels) ts x (.symbol .question :: ts') k)
      (hy : Reads .expression ts' yes (.symbol .colon :: ts'') k')
      (hn : Reads .expression ts'' no rest k'') :
      Reads .conditional ts (.conditional x yes no) rest (max k (max k' k''))
  | tightest {ts rest : List Token} {x : Expr} {k : Nat} (h : Reads .unary ts x rest k) :
      Reads (.level 0) ts x rest k
  | level {n : Nat} {ts mid rest : List Token} {left x : Expr} {k k' : Nat}
      (h : Reads (.level n) ts left mid k) (h' : Reads (.chain n left) mid x rest k') :
      Reads (.level (n + 1)) ts x rest (max k k')
  | chainEnd {n : Nat} {left : Expr} {rest : List Token} (h : operatorAt? n (peek rest) = none) :
      Reads (.chain n left) rest left rest 0
  | chain {n : Nat} {left right x : Expr} {t : Token} {op : BinaryOp} {ts mid rest : List Token}
      {k k' : Nat} (ho : operatorAt? n t = some op) (h : Reads (.level n) ts right mid k)
      (h' : Reads (.chain n (.binary op left right)) mid x rest k') :
      Reads (.chain n left) (t :: ts) x rest (max k k' + 1)
  | noOperator {ts rest : List Token} {x : Expr} {k : Nat} (ho : unaryOperator? (peek ts) = none)
      (h : Reads .operand ts x rest k) : Reads .unary ts x rest k
  | operator {t : Token} {op : UnaryOp} {ts rest : List Token} {x : Expr} {k : Nat}
      (ho : unaryOperator? t = some op) (h : Reads .unary ts x rest k) :
      Reads .unary (t :: ts) (.unary op x) rest (k + 1)
  -- Atoms and what stands behind them.
  | operand {ts mid rest : List Token} {x y : Expr} {k k' : Nat} (h : Reads .atom ts x mid k)
      (h' : Reads (.links x) mid y rest k') : Reads .operand ts y rest (max k k')
  | linksEnd {x : Expr} {rest : List Token} (h : ¬ Links (peek rest)) :
      Reads (.links x) rest x rest 0
  | member {x y : Expr} {name : String} {ts rest : List Token} {k : Nat}
      (hp : peek ts ≠ .symbol .lParen) (h : Reads (.links (.member x name)) ts y rest k) :
      Reads (.links x) (.symbol .dot :: .identifier name :: ts) y rest (k + 1)
  | methodCall {x y : Expr} {name : String} {args : List Expr} {ts mid rest : List Token} {k k' : Nat}
      (h : Reads (.elements .rParen) ts args mid k)
      (h' : Reads (.links (.methodCall x name args)) mid y rest k') :
      Reads (.links x) (.symbol .dot :: .identifier name :: .symbol .lParen :: ts) y rest
        (max k k' + 1)
  | index {x key y : Expr} {ts mid rest : List Token} {k k' : Nat}
      (h : Reads .expression ts key (.symbol .rBracket :: mid) k)
      (h' : Reads (.links (.index x key)) mid y rest k') :
      Reads (.links x) (.symbol .lBracket :: ts) y rest (max k k' + 1)
  | call {callee : String} {y : Expr} {args : List Expr} {ts mid rest : List Token} {k k' : Nat}
      (h : Reads (.elements .rParen) ts args mid k)
      (h' : Reads (.links (.call callee args)) mid y rest k') :
      Reads (.links (.identifier callee)) (.symbol .lParen :: ts) y rest (max k k' + 1)
  | noElement {close : Symbol} {rest : List Token} :
      Reads (.elements close) (.symbol close :: rest) [] rest 0
  | element {close : Symbol} {x : Expr} {xs : List Expr} {ts mid rest : List Token} {k k' : Nat}
      (hc : peek ts ≠ .symbol close) (h : Reads .expression ts x (.symbol .comma :: mid) k)
      (h' : Reads (.elements close) mid xs rest k') :
      Reads (.elements close) ts (x :: xs) rest (max k k')
  | lastElement {close : Symbol} {x : Expr} {ts rest : List Token} {k : Nat} (hn : close ≠ .comma)
      (hc : peek ts ≠ .symbol close) (h : Reads .expression ts x (.symbol close :: rest) k) :
      Reads (.elements close) ts [x] rest k
  | noField {rest : List Token} : Reads .fields (.symbol .rBrace :: rest) [] rest 0
  | field {t : Token} {name : String} {x : Expr} {xs : List (String × Expr)}
      {ts mid rest : List Token} {k k' : Nat} (hn : fieldName? t = some name)
      (h : Reads (.fieldValue name) ts x (.symbol .comma :: mid) k)
      (h' : Reads .fields mid xs rest k') : Reads .fields (t :: ts) ((name, x) :: xs) rest (max k k')
  | lastField {t : Token} {name : String} {x : Expr} {ts rest : List Token} {k : Nat}
      (hn : fieldName? t = some name)
      (h : Reads (.fieldValue name) ts x (.symbol .rBrace :: rest) k) :
      Reads .fields (t :: ts) [(name, x)] rest k
  | fieldValue {name : String} {x : Expr} {ts rest : List Token} {k : Nat}
      (h : Reads .expression ts x rest k) :
      Reads (.fieldValue name) (.symbol .colon :: ts) x rest k
  | fieldOnly {name : String} {rest : List Token} (h : peek rest ≠ .symbol .colon) :
      Reads (.fieldValue name) rest (.identifier name) rest 0
  | literal {t : Token} {x : Expr} {rest : List Token} (h : literal? t = some x) :
      Reads .atom (t :: rest) x rest 0
  | parentheses {ts rest : List Token} {x : Expr} {k : Nat}
      (h : Reads .expression ts x (.symbol .rParen :: rest) k) :
      Reads .atom (.symbol .lParen :: ts) x rest k
  | array {ts rest : List Token} {xs : List Expr} {k : Nat}
      (h : Reads (.elements .rBracket) ts xs rest k) :
      Reads .atom (.symbol .lBracket :: ts) (.array xs) rest k
  | object {ts rest : List Token} {xs : List (String × Expr)} {k : Nat} (h : Reads .fields ts xs rest k) :
      Reads .atom (.symbol .lBrace :: ts) (.object xs) rest k
  | atomFunction {ts rest : List Token} {x : Expr} {k : Nat} (h : Reads .functionTail ts x rest k) :
      Reads .atom (.functionWord :: ts) x rest k

/-! ### Rules put together -/

section

variable {ts rest : List Token} {x : Expr} {k n : Nat}

/-- No arrow function begins at a token that is neither a name nor a parenthesis. -/
theorem not_arrowHead {params : List String} {body : List Token}
    (hn : ∀ name, peek ts ≠ .identifier name) (hp : peek ts ≠ .symbol .lParen) :
    ¬ ArrowHead ts params body := by
  rintro (⟨name, -, rfl⟩ | rfl)
  · exact hn name rfl
  · exact hp rfl

/-- An operand alone is a chain of every level. -/
theorem Reads.toLevel (h : Reads .unary ts x rest k)
    (ho : ∀ m < n, operatorAt? m (peek rest) = none) : Reads (.level n) ts x rest k := by
  induction n with
  | zero => exact .tightest h
  | succ n ih =>
    have := Reads.level (ih fun m hm => ho m (Nat.lt_succ_of_lt hm))
      (.chainEnd (ho n (Nat.lt_succ_self n)))
    rwa [Nat.max_zero] at this

/-- An atom alone is an operand with any operators behind it. -/
theorem Reads.toUnary (h : Reads .atom ts x rest k) (ho : unaryOperator? (peek ts) = none)
    (hl : ¬ Links (peek rest)) : Reads .unary ts x rest k := by
  have := Reads.noOperator ho (.operand h (.linksEnd hl))
  rwa [Nat.max_zero] at this

/-- An operand that ends where an expression must end is one. -/
theorem Reads.toExpression (h : Reads .unary ts x rest k) (hw : peek ts ≠ .functionWord)
    (ha : ∀ params body, ¬ ArrowHead ts params body) (hc : closes (peek rest) = true) :
    Reads .expression ts x rest (k + 1) :=
  .noFunction hw ha (.unconditional (h.toLevel fun m _ => operatorAt?_of_closes hc m)
    (ne_of_closes hc rfl))

end

/-- A name alone is an expression where one must end. -/
theorem reads_name {name : String} {rest : List Token} (hc : closes (peek rest) = true) :
    Reads .expression (.identifier name :: rest) (.identifier name) rest 1 := by
  refine ((Reads.literal rfl).toUnary rfl (not_links_of_closes hc)).toExpression nofun ?_ hc
  rintro params body (⟨name, -, h⟩ | h)
  · rw [(List.cons.inj h).2] at hc
    cases hc
  · cases h

/-- So is a string. -/
theorem reads_string {s : String} {rest : List Token} (hc : closes (peek rest) = true) :
    Reads .expression (.string s :: rest) (.string s) rest 1 :=
  ((Reads.literal rfl).toUnary rfl (not_links_of_closes hc)).toExpression nofun
    (fun _ _ => not_arrowHead nofun nofun) hc

end LiveNotes.Script
