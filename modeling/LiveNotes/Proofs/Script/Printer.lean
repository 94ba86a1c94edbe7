import LiveNotes.Proofs.Script.Grammar

/-!
Expressions written as tokens, with parentheses only where the grammar needs them.

* `Expr.grade`: how loosely an expression binds; `placed p g ts`: a print of grade `g` where one of
  grade `p` may stand, in parentheses if it binds too loosely;
* `Expr.print`: the tokens of an expression, outermost parentheses left out;
* `Expr.nodes`: the number of expressions in an expression, itself included.

Functions are written with an arrow, the names of fields as strings, and every statement ends with a
semicolon.
-/

namespace LiveNotes.Script

/-! ### Operators -/

/-- The level of a binary operator. -/
def BinaryOp.level : BinaryOp → Nat
  | .arith .multiply | .arith .divide | .arith .remainder => 0
  | .arith .add | .arith .subtract => 1
  | .comparison .lessThan | .comparison .greaterThan | .comparison .lessEqual
  | .comparison .greaterEqual => 2
  | .comparison .equal | .comparison .notEqual | .comparison .strictEqual
  | .comparison .strictNotEqual => 3
  | .logic .and => 4
  | .logic .or => 5
  | .logic .nullCoalesce => 6

/-- The symbol of a binary operator. -/
def BinaryOp.symbol : BinaryOp → Symbol
  | .arith .multiply => .star
  | .arith .divide => .slash
  | .arith .remainder => .percent
  | .arith .add => .plus
  | .arith .subtract => .minus
  | .comparison .lessThan => .lt
  | .comparison .greaterThan => .gt
  | .comparison .lessEqual => .ltEq
  | .comparison .greaterEqual => .gtEq
  | .comparison .equal => .eqEq
  | .comparison .notEqual => .notEq
  | .comparison .strictEqual => .eqEqEq
  | .comparison .strictNotEqual => .notEqEq
  | .logic .and => .andAnd
  | .logic .or => .orOr
  | .logic .nullCoalesce => .questionQuestion

/-- The symbol of an operator before its operand. -/
def UnaryOp.symbol : UnaryOp → Symbol
  | .not => .bang
  | .negate => .minus
  | .plus => .plus

/-! ### Printing -/

/-- How loosely an expression binds: an operand with its accesses not at all, then operators before an
operand, the levels of binary operators, conditions and functions. -/
def Expr.grade : Expr → Nat
  | .unary _ _ => 1
  | .binary op _ _ => op.level + 2
  | .conditional _ _ _ => levels + 2
  | .function _ _ => levels + 3
  | _ => 0

/-- Tokens in parentheses. -/
def parenthesised (ts : List Token) : List Token := .symbol .lParen :: (ts ++ [.symbol .rParen])

/-- Tokens of some grade where those of grade `p` may stand. -/
def placed (p grade : Nat) (ts : List Token) : List Token :=
  if grade ≤ p then ts else parenthesised ts

/-- Whether tokens begin like a block. -/
def beginsBlock (ts : List Token) : Bool :=
  match peek ts with
  | .symbol .lBrace => true
  | _ => false

theorem beginsBlock_iff {ts : List Token} : beginsBlock ts = true ↔ peek ts = .symbol .lBrace := by
  unfold beginsBlock
  split
  · next h => exact ⟨fun _ => h, fun _ => rfl⟩
  · next h => exact ⟨nofun, fun hb => absurd hb h⟩

mutual

/-- The tokens of an expression. -/
def Expr.print : Expr → List Token
  | .float x => [.float x]
  | .integer n => [.integer n]
  | .string s => [.string s]
  | .boolean b => [.boolean b]
  | .null => [.null]
  | .identifier name => [.identifier name]
  | .member object name => placed 0 object.grade object.print ++ [.symbol .dot, .identifier name]
  | .index object key =>
    placed 0 object.grade object.print ++ .symbol .lBracket :: (key.print ++ [.symbol .rBracket])
  | .unary op operand => .symbol op.symbol :: placed 1 operand.grade operand.print
  | .binary op left right =>
    placed (op.level + 2) left.grade left.print ++
      .symbol op.symbol :: placed (op.level + 1) right.grade right.print
  | .conditional condition yes no =>
    placed (levels + 1) condition.grade condition.print ++
      .symbol .question :: (yes.print ++ .symbol .colon :: no.print)
  | .call callee args =>
    .identifier callee :: .symbol .lParen :: (printAll args ++ [.symbol .rParen])
  | .methodCall object method args =>
    placed 0 object.grade object.print ++
      .symbol .dot :: .identifier method :: .symbol .lParen :: (printAll args ++ [.symbol .rParen])
  | .function params body => paramTokens params ++ .symbol .arrow :: body.print
  | .object fields => .symbol .lBrace :: (printFields fields ++ [.symbol .rBrace])
  | .array items => .symbol .lBracket :: (printAll items ++ [.symbol .rBracket])

/-- The tokens of what a function does. An expression that begins like a block is put in
parentheses. -/
def Body.print : Body → List Token
  | .expr e => if beginsBlock e.print then parenthesised e.print else e.print
  | .block statements => .symbol .lBrace :: (printStatements statements ++ [.symbol .rBrace])

/-- The tokens of a statement, without its semicolon. -/
def Statement.print : Statement → List Token
  | .declare name value => .declareWord :: .identifier name :: .symbol .assign :: value.print
  | .give value => .returnWord :: value.print
  | .expression e => e.print

/-- Expressions with commas between them. -/
def printAll : List Expr → List Token
  | [] => []
  | e :: es =>
    match es with
    | [] => e.print
    | _ :: _ => e.print ++ .symbol .comma :: printAll es

/-- Fields with commas between them. -/
def printFields : List (String × Expr) → List Token
  | [] => []
  | (name, e) :: fields =>
    match fields with
    | [] => .string name :: .symbol .colon :: e.print
    | _ :: _ => .string name :: .symbol .colon :: (e.print ++ .symbol .comma :: printFields fields)

/-- Statements, each with a semicolon behind it. -/
def printStatements : List Statement → List Token
  | [] => []
  | s :: ss => s.print ++ .symbol .semicolon :: printStatements ss

end

/-! ### Sizes -/

mutual

/-- The number of expressions in an expression. -/
def Expr.nodes : Expr → Nat
  | .member object _ => object.nodes + 1
  | .index object key => object.nodes + key.nodes + 1
  | .unary _ operand => operand.nodes + 1
  | .binary _ left right => left.nodes + right.nodes + 1
  | .conditional condition yes no => condition.nodes + yes.nodes + no.nodes + 1
  | .call _ args => nodesOfAll args + 1
  | .methodCall object _ args => object.nodes + nodesOfAll args + 1
  | .function _ body => body.nodes + 1
  | .object fields => nodesOfFields fields + 1
  | .array items => nodesOfAll items + 1
  | _ => 1

/-- The number of expressions in the body of a function. -/
def Body.nodes : Body → Nat
  | .expr e => e.nodes
  | .block statements => nodesOfBlock statements

/-- The number of expressions in a statement. -/
def Statement.nodes : Statement → Nat
  | .declare _ value => value.nodes
  | .give value => value.nodes
  | .expression e => e.nodes

/-- The number of expressions in some expressions. -/
def nodesOfAll : List Expr → Nat
  | [] => 0
  | e :: es => e.nodes + nodesOfAll es

/-- The number of expressions in some fields. -/
def nodesOfFields : List (String × Expr) → Nat
  | [] => 0
  | (_, e) :: fields => e.nodes + nodesOfFields fields

/-- The number of expressions in some statements. -/
def nodesOfBlock : List Statement → Nat
  | [] => 0
  | s :: ss => s.nodes + nodesOfBlock ss

end

theorem Expr.nodes_pos (e : Expr) : 0 < e.nodes := by
  cases e <;> simp [Expr.nodes]

/-! ### Operators are read again -/

theorem operatorAt?_symbol (op : BinaryOp) :
    operatorAt? op.level (.symbol op.symbol) = some op := by
  rcases op with (op | op | op) <;> cases op <;> rfl

theorem BinaryOp.level_lt (op : BinaryOp) : op.level < levels := by
  rcases op with (op | op | op) <;> cases op <;> decide

theorem operatorAt?_tighter (op : BinaryOp) {m : Nat} (h : m < op.level) :
    operatorAt? m (.symbol op.symbol) = none := by
  rw [← Option.isNone_iff_eq_none]
  revert m
  rcases op with (op | op | op) <;> cases op <;> decide

theorem not_links_symbol (op : BinaryOp) : ¬ Links (.symbol op.symbol) := by
  rcases op with (op | op | op) <;> cases op <;> simp [Links, BinaryOp.symbol]

theorem unaryOperator?_symbol (op : UnaryOp) : unaryOperator? (.symbol op.symbol) = some op := by
  cases op <;> rfl

end LiveNotes.Script
