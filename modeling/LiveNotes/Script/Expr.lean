import LiveNotes.Value.Arith

/-!
Expressions of the function language. A script is one function literal; inside it there are
expressions, bindings and `return`, and no loops.
-/

namespace LiveNotes.Script

/-- The operators that compare two values. -/
inductive Comparison where
  | equal | notEqual | strictEqual | strictNotEqual
  | lessThan | greaterThan | lessEqual | greaterEqual
deriving DecidableEq, Repr

/-- The operators that give one of their operands, and leave the right one alone if it is not
needed. -/
inductive Logic where
  | and | or | nullCoalesce
deriving DecidableEq, Repr

/-- The binary operators. -/
inductive BinaryOp where
  | comparison (op : Comparison)
  | arith (op : Arith)
  | logic (op : Logic)
deriving DecidableEq

/-- The operators written before their operand. -/
inductive UnaryOp where
  | not | negate | plus
deriving DecidableEq, Repr

mutual

/-- An expression. -/
inductive Expr where
  | float (x : Float)
  | integer (n : Int64)
  | string (s : String)
  | boolean (b : Bool)
  | null
  | identifier (name : String)
  | member (object : Expr) (name : String)
  | index (object : Expr) (key : Expr)
  | unary (op : UnaryOp) (operand : Expr)
  | binary (op : BinaryOp) (left right : Expr)
  | conditional (condition yes no : Expr)
  | call (callee : String) (args : List Expr)
  | methodCall (object : Expr) (method : String) (args : List Expr)
  | function (params : List String) (body : Body)
  | object (fields : List (String × Expr))
  | array (items : List Expr)

/-- What a function does: one expression, or statements up to the first `return`. -/
inductive Body where
  | expr (e : Expr)
  | block (statements : List Statement)

/-- A statement of a block. -/
inductive Statement where
  | declare (name : String) (value : Expr)
  | give (value : Expr)
  | expression (e : Expr)

end

instance : Inhabited Expr := ⟨.null⟩

/-- A function literal. -/
structure Lambda where
  params : List String
  body : Body

/-- The number of arguments that a function takes. -/
def Lambda.arity (f : Lambda) : Nat := f.params.length

end LiveNotes.Script
