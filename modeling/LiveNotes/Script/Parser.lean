import LiveNotes.Script.Lexer
import LiveNotes.Script.Expr

/-!
From tokens to expressions, by recursive descent. A cursor holds the tokens not yet read and the
depth reached. Every sub-expression, every operator before its operand and every further link of a
chain of operators or of member accesses goes one level deeper; a finished expression is back at
the depth where it began.

The binary operators stand on seven levels, from the loosest to the tightest, and each level is a
chain of operands of the next. The functions on one cursor call each other on shorter rests, or on
the same rest further down the grammar: that is why they end.

* `parseExpression`, `parseFunction`: a whole text as an expression, or as a function literal;
* `maxDepth`: the deepest level.
-/

namespace LiveNotes.Script

/-- What stands in place of a token that does not fit. -/
inductive Expected where
  | identifier | expression | operator | objectKey | endOfInput
  | symbol (s : Symbol)
deriving DecidableEq, Repr

/-- The words for what was expected. -/
def Expected.words : Expected → String
  | .identifier => "identifier"
  | .expression => "expression"
  | .operator => "operator"
  | .objectKey => "object key"
  | .endOfInput => "end of input"
  | .symbol s => .ofList s.spelling

/-- Why a text is no expression or no function. -/
inductive SyntaxError where
  | lex (e : LexError)
  | unexpected (expected : Expected) (found : Token) (position : Nat)
  | notAFunction
  | tooDeep (position : Nat)

/-- The message of an error. -/
def SyntaxError.message : SyntaxError → String
  | .lex e => e.message
  | .unexpected expected found p =>
    s!"expected {expected.words}, found {found.label} at position {p}"
  | .notAFunction => "a custom function must be a function literal such as `(a, b) => a + b`"
  | .tooDeep p => s!"expression nested too deeply at position {p}"

/-- The deepest level of an expression. -/
def maxDepth : Nat := 128

/-- Tokens with their positions. -/
abbrev Tokens := List (Token × Nat)

/-- The tokens not yet read, the last of them `eof`, and the depth reached. -/
structure Cursor where
  rest : Tokens
  depth : Nat

namespace Cursor

/-- The next token. -/
def token (c : Cursor) : Token :=
  match c.rest with
  | [] => .eof
  | (t, _) :: _ => t

/-- The position of the next token. -/
def position (c : Cursor) : Nat :=
  match c.rest with
  | [] => 0
  | (_, p) :: _ => p

/-- Whether the next token is a symbol. -/
def sees (c : Cursor) (s : Symbol) : Bool :=
  match c.token with
  | .symbol t => t == s
  | _ => false

/-- Behind the next token. -/
def next (c : Cursor) : Cursor := { c with rest := c.rest.tail }

/-- At another depth. -/
def withDepth (c : Cursor) (depth : Nat) : Cursor := { c with depth := depth }

/-- With other tokens to read. -/
def withRest (c : Cursor) (rest : Tokens) : Cursor := { c with rest := rest }

/-- The error that the next token does not fit. -/
def unexpected (c : Cursor) (e : Expected) : SyntaxError := .unexpected e c.token c.position

end Cursor

/-- What was read from `c`, and the cursor behind it: at least one token was read. -/
structure Read (c : Cursor) (α : Type) where
  value : α
  after : Cursor
  shorter : after.rest.length < c.rest.length

/-- What was read from `c`, perhaps no token, and the cursor behind it. -/
structure Peeked (c : Cursor) (α : Type) where
  value : α
  after : Cursor
  notLonger : after.rest.length ≤ c.rest.length

theorem Cursor.next_lt_of_sees {c : Cursor} {s : Symbol} (h : c.sees s = true) :
    c.next.rest.length < c.rest.length := by
  obtain ⟨rest, depth⟩ := c
  cases rest with
  | nil => simp [Cursor.sees, Cursor.token] at h
  | cons t ts => simp [Cursor.next]

theorem Cursor.next_lt {c : Cursor} (h : c.token ≠ .eof) :
    c.next.rest.length < c.rest.length := by
  obtain ⟨rest, depth⟩ := c
  cases rest with
  | nil => simp [Cursor.token] at h
  | cons t ts => simp [Cursor.next]

theorem Cursor.next_lt_of_rest_eq {c d : Cursor} (hd : d.rest = c.rest) (h : c.token ≠ .eof) :
    d.next.rest.length < c.rest.length := by
  have := next_lt h
  simpa [Cursor.next, hd] using this

@[simp] theorem Cursor.withDepth_rest (c : Cursor) (d : Nat) : (c.withDepth d).rest = c.rest := rfl

/-- One level deeper. -/
def descend (c : Cursor) :
    Except SyntaxError { d : Cursor // d.rest = c.rest } :=
  if c.depth + 1 > maxDepth then .error (.tooDeep c.position)
  else .ok ⟨c.withDepth (c.depth + 1), rfl⟩

/-- Behind a symbol that must come next. -/
def expect (s : Symbol) (c : Cursor) : Except SyntaxError (Read c Unit) :=
  if h : c.sees s = true then .ok ⟨(), c.next, Cursor.next_lt_of_sees h⟩
  else .error (c.unexpected (.symbol s))

/-- A name that must come next. -/
def expectName (c : Cursor) : Except SyntaxError (Read c String) :=
  match h : c.token with
  | .identifier name => .ok ⟨name, c.next, Cursor.next_lt (by simp [h])⟩
  | _ => .error (c.unexpected .identifier)

/-- Drops the semicolons at the start. -/
def dropSemicolons : Tokens → Tokens
  | (.symbol .semicolon, _) :: rest => dropSemicolons rest
  | rest => rest

theorem dropSemicolons_length_le (ts : Tokens) : (dropSemicolons ts).length ≤ ts.length := by
  induction ts with
  | nil => simp [dropSemicolons]
  | cons t ts ih =>
    unfold dropSemicolons
    split
    · rename_i h
      obtain ⟨rfl, rfl⟩ := List.cons.inj h
      exact Nat.le_succ_of_le ih
    · exact Nat.le_refl _

/-- Behind the semicolons that come next. -/
def Cursor.behindSemicolons (c : Cursor) : Cursor := { c with rest := dropSemicolons c.rest }

/-- The names of a parameter list behind its opening parenthesis, if they are followed by the
closing one and an arrow, with the tokens behind the arrow. -/
def arrowNames? (done : List String) : Tokens → Option (List String × Tokens)
  | (.identifier name, _) :: (.symbol .comma, _) :: rest => arrowNames? (name :: done) rest
  | (.identifier name, _) :: (.symbol .rParen, _) :: (.symbol .arrow, _) :: rest =>
    some ((name :: done).reverse, rest)
  | _ => none

/-- The parameters of an arrow function that comes next, with the tokens behind its arrow. -/
def arrowParams? : Tokens → Option (List String × Tokens)
  | (.identifier name, _) :: (.symbol .arrow, _) :: rest => some ([name], rest)
  | (.symbol .lParen, _) :: (.symbol .rParen, _) :: (.symbol .arrow, _) :: rest => some ([], rest)
  | (.symbol .lParen, _) :: rest => arrowNames? [] rest
  | _ => none

theorem arrowNames?_shorter {done : List String} {ts : Tokens} {r : List String × Tokens}
    (h : arrowNames? done ts = some r) : r.2.length < ts.length := by
  fun_induction arrowNames? done ts <;> simp_all <;> first | omega | (subst h; dsimp only; omega)

theorem arrowParams?_shorter {ts : Tokens} {r : List String × Tokens}
    (h : arrowParams? ts = some r) : r.2.length < ts.length := by
  unfold arrowParams? at h
  split at h
  · cases h; simp only [List.length_cons]; omega
  · cases h; simp only [List.length_cons]; omega
  · have := arrowNames?_shorter h
    simp only [List.length_cons]; omega
  · cases h

/-- The parameters of a `function` behind the opening parenthesis, up to the closing one. -/
def paramNames (done : List String) (ts : Tokens) (depth : Nat) :
    Except SyntaxError (List String × Tokens) :=
  match ts with
  | (.identifier name, _) :: (.symbol .comma, _) :: rest => paramNames (name :: done) rest depth
  | (.identifier name, _) :: (.symbol .rParen, _) :: rest => .ok ((name :: done).reverse, rest)
  | (.identifier _, _) :: rest => .error (Cursor.unexpected ⟨rest, depth⟩ (.symbol .rParen))
  | rest => .error (Cursor.unexpected ⟨rest, depth⟩ .identifier)

theorem paramNames_shorter {done : List String} {ts : Tokens} {depth : Nat}
    {r : List String × Tokens} (h : paramNames done ts depth = .ok r) : r.2.length < ts.length := by
  fun_induction paramNames done ts depth <;> simp_all <;> first | omega | (subst h; dsimp only; omega)

/-- The parameter list of a `function`, parentheses included. -/
def paramList (c : Cursor) : Except SyntaxError (Read c (List String)) := do
  let ⟨(), d, hd⟩ ← expect .lParen c
  if h : d.sees .rParen = true then
    have := Cursor.next_lt_of_sees h
    return ⟨[], d.next, by omega⟩
  else
    match h : paramNames [] d.rest d.depth with
    | .error e => .error e
    | .ok (names, rest) =>
      have : (d.withRest rest).rest.length < d.rest.length := paramNames_shorter h
      return ⟨names, d.withRest rest, by omega⟩

/-- The binary operators of one level of the grammar, counted from the tightest. -/
def operatorAt? (level : Nat) (t : Token) : Option BinaryOp :=
  match level, t with
  | 0, .symbol .star => some (.arith .multiply)
  | 0, .symbol .slash => some (.arith .divide)
  | 0, .symbol .percent => some (.arith .remainder)
  | 1, .symbol .plus => some (.arith .add)
  | 1, .symbol .minus => some (.arith .subtract)
  | 2, .symbol .lt => some (.comparison .lessThan)
  | 2, .symbol .gt => some (.comparison .greaterThan)
  | 2, .symbol .ltEq => some (.comparison .lessEqual)
  | 2, .symbol .gtEq => some (.comparison .greaterEqual)
  | 3, .symbol .eqEq => some (.comparison .equal)
  | 3, .symbol .notEq => some (.comparison .notEqual)
  | 3, .symbol .eqEqEq => some (.comparison .strictEqual)
  | 3, .symbol .notEqEq => some (.comparison .strictNotEqual)
  | 4, .symbol .andAnd => some (.logic .and)
  | 5, .symbol .orOr => some (.logic .or)
  | 6, .symbol .questionQuestion => some (.logic .nullCoalesce)
  | _, _ => none

/-- The number of levels of binary operators. -/
def levels : Nat := 7

/-- The operator that a token is before its operand. -/
def unaryOperator? : Token → Option UnaryOp
  | .symbol .bang => some .not
  | .symbol .minus => some .negate
  | .symbol .plus => some .plus
  | _ => none

/-- The expression that a token is by itself. -/
def literal? : Token → Option Expr
  | .float x => some (.float x)
  | .integer n => some (.integer n)
  | .string s => some (.string s)
  | .boolean b => some (.boolean b)
  | .null | .undefined => some .null
  | .identifier name => some (.identifier name)
  | _ => none

/-- The name that a token gives to a field of an object. -/
def fieldName? : Token → Option String
  | .identifier name => some name
  | .string s => some s
  | .integer n => some (Number.integerText n)
  | _ => none

/-- Whether a token ends a `return` that gives nothing. -/
def endsReturn : Token → Bool
  | .symbol .semicolon | .symbol .rBrace | .eof => true
  | _ => false

theorem operatorAt?_ne_eof {level : Nat} {t : Token} {op : BinaryOp}
    (h : operatorAt? level t = some op) : t ≠ .eof := by
  rintro rfl
  unfold operatorAt? at h
  split at h <;> simp_all

theorem unaryOperator?_ne_eof {t : Token} {op : UnaryOp} (h : unaryOperator? t = some op) :
    t ≠ .eof := by
  rintro rfl
  simp [unaryOperator?] at h

theorem literal?_ne_eof {t : Token} {x : Expr} (h : literal? t = some x) : t ≠ .eof := by
  rintro rfl
  simp [literal?] at h

theorem fieldName?_ne_eof {t : Token} {name : String} (h : fieldName? t = some name) :
    t ≠ .eof := by
  rintro rfl
  simp [fieldName?] at h

mutual

/-- An expression: a function literal, or a conditional expression. -/
def expression (c : Cursor) : Except SyntaxError (Read c Expr) := do
  let ⟨d, hd⟩ ← descend c
  have := congrArg List.length hd
  match ht : d.token with
  | .functionWord =>
    have := Cursor.next_lt (c := d) (by simp [ht])
    let ⟨x, e, he⟩ ← functionTail d.next
    return ⟨x, e.withDepth c.depth, (by omega : e.rest.length < c.rest.length)⟩
  | _ =>
    match hp : arrowParams? d.rest with
    | some (params, rest) =>
      have : (d.withRest rest).rest.length < d.rest.length := arrowParams?_shorter hp
      if (d.withRest rest).sees .lBrace then
        let ⟨statements, e, he⟩ ← block (d.withRest rest)
        return ⟨.function params (.block statements), e.withDepth c.depth,
          (by omega : e.rest.length < c.rest.length)⟩
      else
        let ⟨x, e, he⟩ ← expression (d.withRest rest)
        return ⟨.function params (.expr x), e.withDepth c.depth,
          (by omega : e.rest.length < c.rest.length)⟩
    | none =>
      let ⟨x, e, he⟩ ← conditional d
      return ⟨x, e.withDepth c.depth, (by omega : e.rest.length < c.rest.length)⟩
termination_by 16 * c.rest.length + 12

/-- A `function` literal behind its word; a name may stand there and is not bound. -/
def functionTail (c : Cursor) : Except SyntaxError (Read c Expr) := do
  match ht : c.token with
  | .identifier _ =>
    have := Cursor.next_lt (c := c) (by simp [ht])
    let ⟨params, d, hd⟩ ← paramList c.next
    let ⟨statements, e, he⟩ ← block d
    return ⟨.function params (.block statements), e, by omega⟩
  | _ =>
    let ⟨params, d, hd⟩ ← paramList c
    let ⟨statements, e, he⟩ ← block d
    return ⟨.function params (.block statements), e, by omega⟩
termination_by 16 * c.rest.length

/-- Statements in braces. -/
def block (c : Cursor) : Except SyntaxError (Read c (List Statement)) := do
  let ⟨(), d, hd⟩ ← expect .lBrace c
  let ⟨statements, e, he⟩ ← statementsFrom [] d
  return ⟨statements, e, by omega⟩
termination_by 16 * c.rest.length

/-- Statements up to a closing brace, behind those already read, last one first. -/
def statementsFrom (done : List Statement) (c : Cursor) : Except SyntaxError (Read c (List Statement)) := do
  have hle : c.behindSemicolons.rest.length ≤ c.rest.length := dropSemicolons_length_le c.rest
  if h : c.behindSemicolons.sees .rBrace = true then
    have := Cursor.next_lt_of_sees h
    return ⟨done.reverse, c.behindSemicolons.next, by omega⟩
  else
    match c.behindSemicolons.token with
    | .eof => .error (c.behindSemicolons.unexpected (.symbol .rBrace))
    | _ =>
      let ⟨s, d, hd⟩ ← statement c.behindSemicolons
      let ⟨r, g, hr⟩ ← statementsFrom (s :: done) d
      return ⟨r, g, by omega⟩
termination_by 16 * c.rest.length + 14

/-- One statement. -/
def statement (c : Cursor) : Except SyntaxError (Read c Statement) := do
  match ht : c.token with
  | .declareWord =>
    have := Cursor.next_lt (c := c) (by simp [ht])
    let ⟨name, d, hd⟩ ← expectName c.next
    if h : d.sees .assign = true then
      have := Cursor.next_lt_of_sees h
      let ⟨x, e, he⟩ ← expression d.next
      return ⟨.declare name x, e, by omega⟩
    else return ⟨.declare name .null, d, by omega⟩
  | .returnWord =>
    have := Cursor.next_lt (c := c) (by simp [ht])
    if endsReturn c.next.token then return ⟨.give .null, c.next, by omega⟩
    else
      let ⟨x, d, hd⟩ ← expression c.next
      return ⟨.give x, d, by omega⟩
  | _ =>
    let ⟨x, d, hd⟩ ← expression c
    return ⟨.expression x, d, by omega⟩
termination_by 16 * c.rest.length + 13

/-- A condition with its two branches, or the chains of operators alone. -/
def conditional (c : Cursor) : Except SyntaxError (Read c Expr) := do
  let ⟨x, d, hd⟩ ← binaryLevel levels (Nat.le_refl _) c
  if h : d.sees .question = true then
    have := Cursor.next_lt_of_sees h
    let ⟨yes, e, he⟩ ← expression d.next
    let ⟨(), f, hf⟩ ← expect .colon e
    let ⟨no, g, hg⟩ ← expression f
    return ⟨.conditional x yes no, g, by omega⟩
  else return ⟨x, d, by omega⟩
termination_by 16 * c.rest.length + 11
decreasing_by all_goals ((try unfold levels); omega)

/-- A chain of operands joined by the operators of the levels below `level`. -/
def binaryLevel (level : Nat) (hl : level ≤ levels) (c : Cursor) : Except SyntaxError (Read c Expr) :=
  match level with
  | 0 => unary c
  | level + 1 => do
    let ⟨left, d, hd⟩ ← binaryLevel level (Nat.le_of_succ_le hl) c
    let ⟨x, e, he⟩ ← chain level hl left d
    return ⟨x, e.withDepth c.depth, (by omega : e.rest.length < c.rest.length)⟩
termination_by 16 * c.rest.length + 3 + level
decreasing_by all_goals simp only [levels] at *; omega

/-- The further operands of a chain behind its left part. -/
def chain (level : Nat) (hl : level + 1 ≤ levels) (left : Expr) (c : Cursor) :
    Except SyntaxError (Peeked c Expr) := do
  match ho : operatorAt? level c.token with
  | none => return ⟨left, c, Nat.le_refl _⟩
  | some op =>
    have := Cursor.next_lt (operatorAt?_ne_eof ho)
    let ⟨d, hd⟩ ← descend c.next
    have := congrArg List.length hd
    let ⟨right, e, he⟩ ← binaryLevel level (Nat.le_of_succ_le hl) d
    let ⟨r, g, hr⟩ ← chain level hl (.binary op left right) e
    return ⟨r, g, by omega⟩
termination_by 16 * c.rest.length
decreasing_by all_goals simp only [levels] at *; omega

/-- An operand with the operators before it. -/
def unary (c : Cursor) : Except SyntaxError (Read c Expr) := do
  match ho : unaryOperator? c.token with
  | none => operand c
  | some op =>
    have := Cursor.next_lt (unaryOperator?_ne_eof ho)
    let ⟨d, hd⟩ ← descend c.next
    have := congrArg List.length hd
    let ⟨x, e, he⟩ ← unary d
    return ⟨.unary op x, e.withDepth c.depth, (by omega : e.rest.length < c.rest.length)⟩
termination_by 16 * c.rest.length + 2

/-- An atom with the accesses behind it. -/
def operand (c : Cursor) : Except SyntaxError (Read c Expr) := do
  let ⟨x, d, hd⟩ ← atom c
  let ⟨y, e, he⟩ ← links x d
  return ⟨y, e.withDepth c.depth, (by omega : e.rest.length < c.rest.length)⟩
termination_by 16 * c.rest.length + 1

/-- Members, indexes and calls behind an expression, left to right. -/
def links (x : Expr) (c : Cursor) : Except SyntaxError (Peeked c Expr) := do
  match ht : c.token with
  | .symbol .dot =>
    let ⟨d, hd⟩ ← descend c
    have := Cursor.next_lt_of_rest_eq hd (by simp [ht])
    let ⟨name, e, he⟩ ← expectName d.next
    if h : e.sees .lParen = true then
      have := Cursor.next_lt_of_sees h
      let ⟨args, f, hf⟩ ← elements .rParen [] e.next
      let ⟨r, g, hr⟩ ← links (.methodCall x name args) f
      return ⟨r, g, by omega⟩
    else
      let ⟨r, g, hr⟩ ← links (.member x name) e
      return ⟨r, g, by omega⟩
  | .symbol .lBracket =>
    let ⟨d, hd⟩ ← descend c
    have := Cursor.next_lt_of_rest_eq hd (by simp [ht])
    let ⟨key, e, he⟩ ← expression d.next
    let ⟨(), f, hf⟩ ← expect .rBracket e
    let ⟨r, g, hr⟩ ← links (.index x key) f
    return ⟨r, g, by omega⟩
  | .symbol .lParen =>
    let ⟨d, hd⟩ ← descend c
    have := Cursor.next_lt_of_rest_eq hd (by simp [ht])
    match x with
    | .identifier callee =>
      let ⟨args, e, he⟩ ← elements .rParen [] d.next
      let ⟨r, g, hr⟩ ← links (.call callee args) e
      return ⟨r, g, by omega⟩
    | _ => .error (d.unexpected .operator)
  | _ => return ⟨x, c, Nat.le_refl _⟩
termination_by 16 * c.rest.length

/-- Expressions with commas between them up to a closing symbol, behind those already read, last
one first. A comma may stand before the closing symbol. -/
def elements (close : Symbol) (done : List Expr) (c : Cursor) : Except SyntaxError (Read c (List Expr)) := do
  if h : c.sees close = true then
    return ⟨done.reverse, c.next, Cursor.next_lt_of_sees h⟩
  else
    let ⟨x, d, hd⟩ ← expression c
    if h : d.sees .comma = true then
      have := Cursor.next_lt_of_sees h
      let ⟨r, g, hr⟩ ← elements close (x :: done) d.next
      return ⟨r, g, by omega⟩
    else
      let ⟨(), e, he⟩ ← expect close d
      return ⟨(x :: done).reverse, e, by omega⟩
termination_by 16 * c.rest.length + 13

/-- The fields of an object up to its closing brace, behind those already read, last one first. A
field without a value has the value of the variable of its name. -/
def fields (done : List (String × Expr)) (c : Cursor) : Except SyntaxError (Read c (List (String × Expr))) := do
  if h : c.sees .rBrace = true then
    return ⟨done.reverse, c.next, Cursor.next_lt_of_sees h⟩
  else
    match hn : fieldName? c.token with
    | none => .error (c.unexpected .objectKey)
    | some name =>
      have := Cursor.next_lt (fieldName?_ne_eof hn)
      let ⟨x, d, hd⟩ ← fieldValue name c.next
      if h : d.sees .comma = true then
        have := Cursor.next_lt_of_sees h
        let ⟨r, g, hr⟩ ← fields ((name, x) :: done) d.next
        return ⟨r, g, by omega⟩
      else
        let ⟨(), e, he⟩ ← expect .rBrace d
        return ⟨((name, x) :: done).reverse, e, by omega⟩
termination_by 16 * c.rest.length

/-- The value of a field behind its name. -/
def fieldValue (name : String) (c : Cursor) : Except SyntaxError (Peeked c Expr) := do
  if h : c.sees .colon = true then
    have := Cursor.next_lt_of_sees h
    let ⟨x, d, hd⟩ ← expression c.next
    return ⟨x, d, by omega⟩
  else return ⟨.identifier name, c, Nat.le_refl _⟩
termination_by 16 * c.rest.length

/-- A literal, a variable, an array, an object, a `function`, or an expression in parentheses. -/
def atom (c : Cursor) : Except SyntaxError (Read c Expr) := do
  match hl : literal? c.token with
  | some x => return ⟨x, c.next, Cursor.next_lt (literal?_ne_eof hl)⟩
  | none =>
    match ht : c.token with
    | .symbol .lParen =>
      have := Cursor.next_lt (c := c) (by simp [ht])
      let ⟨x, d, hd⟩ ← expression c.next
      let ⟨(), e, he⟩ ← expect .rParen d
      return ⟨x, e, by omega⟩
    | .symbol .lBracket =>
      have := Cursor.next_lt (c := c) (by simp [ht])
      let ⟨items, d, hd⟩ ← elements .rBracket [] c.next
      return ⟨.array items, d, by omega⟩
    | .symbol .lBrace =>
      have := Cursor.next_lt (c := c) (by simp [ht])
      let ⟨members, d, hd⟩ ← fields [] c.next
      return ⟨.object members, d, by omega⟩
    | .functionWord =>
      have := Cursor.next_lt (c := c) (by simp [ht])
      let ⟨x, d, hd⟩ ← functionTail c.next
      return ⟨x, d, by omega⟩
    | _ => .error (c.unexpected .expression)
termination_by 16 * c.rest.length

end

/-- A whole list of tokens as one expression; semicolons may follow it. -/
def parseTokens (tokens : Tokens) : Except SyntaxError Expr := do
  let ⟨x, c, _⟩ ← expression ⟨tokens, 0⟩
  match c.behindSemicolons.token with
  | .eof => return x
  | _ => .error (c.behindSemicolons.unexpected .endOfInput)

/-- A text as one expression. -/
def parseExpression (text : String) : Except SyntaxError Expr :=
  match tokenize text with
  | .ok tokens => parseTokens tokens
  | .error e => .error (.lex e)

/-- A text as a function literal. -/
def parseFunction (text : String) : Except SyntaxError Lambda := do
  match ← parseExpression text with
  | .function params body => return ⟨params, body⟩
  | _ => .error .notAFunction

end LiveNotes.Script
