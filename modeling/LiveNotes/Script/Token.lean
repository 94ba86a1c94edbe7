import LiveNotes.Number.Text
import LiveNotes.Number.Integer
import LiveNotes.Text.Quoted

/-!
Tokens of the function language: literals, names, words with a meaning, and symbols.

* `Symbol.spelling`: how a symbol is written;
* `Token.ofWord`: the token of a word, which is a name unless it has a meaning of its own;
* `Token.label`: how messages show a token.
-/

namespace LiveNotes.Script

open Number

/-- Operators and delimiters. -/
inductive Symbol where
  | arrow | plus | minus | star | slash | percent
  | eqEq | eqEqEq | notEq | notEqEq | lt | gt | ltEq | gtEq
  | andAnd | orOr | bang | question | questionQuestion | colon | assign
  | dot | comma | semicolon | lParen | rParen | lBracket | rBracket | lBrace | rBrace
deriving DecidableEq, Repr

namespace Symbol

/-- The characters of a symbol. -/
def spelling : Symbol → List Char
  | .arrow => ['=', '>']
  | .plus => ['+']
  | .minus => ['-']
  | .star => ['*']
  | .slash => ['/']
  | .percent => ['%']
  | .eqEq => ['=', '=']
  | .eqEqEq => ['=', '=', '=']
  | .notEq => ['!', '=']
  | .notEqEq => ['!', '=', '=']
  | .lt => ['<']
  | .gt => ['>']
  | .ltEq => ['<', '=']
  | .gtEq => ['>', '=']
  | .andAnd => ['&', '&']
  | .orOr => ['|', '|']
  | .bang => ['!']
  | .question => ['?']
  | .questionQuestion => ['?', '?']
  | .colon => [':']
  | .assign => ['=']
  | .dot => ['.']
  | .comma => [',']
  | .semicolon => [';']
  | .lParen => ['(']
  | .rParen => [')']
  | .lBracket => ['[']
  | .rBracket => [']']
  | .lBrace => ['\x7b']
  | .rBrace => ['\x7d']

/-- The name of a symbol in messages. -/
def label : Symbol → String
  | .arrow => "Arrow"
  | .plus => "Plus"
  | .minus => "Minus"
  | .star => "Star"
  | .slash => "Slash"
  | .percent => "Percent"
  | .eqEq => "EqEq"
  | .eqEqEq => "EqEqEq"
  | .notEq => "NotEq"
  | .notEqEq => "NotEqEq"
  | .lt => "Lt"
  | .gt => "Gt"
  | .ltEq => "LtEq"
  | .gtEq => "GtEq"
  | .andAnd => "AndAnd"
  | .orOr => "OrOr"
  | .bang => "Bang"
  | .question => "Question"
  | .questionQuestion => "QuestionQuestion"
  | .colon => "Colon"
  | .assign => "Assign"
  | .dot => "Dot"
  | .comma => "Comma"
  | .semicolon => "Semicolon"
  | .lParen => "LParen"
  | .rParen => "RParen"
  | .lBracket => "LBracket"
  | .rBracket => "RBracket"
  | .lBrace => "LBrace"
  | .rBrace => "RBrace"

/-- All symbols, longer spellings first, so that the first one found is the longest. -/
def longestFirst : List Symbol :=
  [.eqEqEq, .notEqEq,
    .arrow, .eqEq, .notEq, .ltEq, .gtEq, .andAnd, .orOr, .questionQuestion,
    .plus, .minus, .star, .slash, .percent, .lt, .gt, .bang, .question, .colon, .assign,
    .dot, .comma, .semicolon, .lParen, .rParen, .lBracket, .rBracket, .lBrace, .rBrace]

theorem mem_longestFirst (s : Symbol) : s ∈ longestFirst := by
  cases s <;> decide

end Symbol

/-- The tokens. -/
inductive Token where
  | float (x : Float)
  | integer (n : Int64)
  | string (s : String)
  | boolean (b : Bool)
  | null
  | undefined
  | identifier (name : String)
  | functionWord
  | returnWord
  | declareWord
  | symbol (s : Symbol)
  | eof
deriving Inhabited

namespace Token

/-- The token of a word. -/
def ofWord (w : String) : Token :=
  if w = "true" then .boolean true
  else if w = "false" then .boolean false
  else if w = "null" then .null
  else if w = "undefined" then .undefined
  else if w = "function" then .functionWord
  else if w = "return" then .returnWord
  else if w = "const" ∨ w = "let" ∨ w = "var" then .declareWord
  else .identifier w

/-- The name of the kind of a token. -/
def kindLabel : Token → String
  | .float _ => "Float"
  | .integer _ => "Integer"
  | .string _ => "String"
  | .boolean _ => "Boolean"
  | .null => "Null"
  | .undefined => "Undefined"
  | .identifier _ => "Identifier"
  | .functionWord => "Function"
  | .returnWord => "Return"
  | .declareWord => "Declare"
  | .symbol s => s.label
  | .eof => "Eof"

/-- A token in a message: its kind, and what it holds in parentheses. -/
def label (t : Token) : String :=
  match t with
  | .float x => t.kindLabel ++ "(" ++ labelled x ++ ")"
  | .integer n => t.kindLabel ++ "(" ++ integerText n ++ ")"
  | .string s => t.kindLabel ++ "(" ++ Text.quoted s ++ ")"
  | .boolean b => t.kindLabel ++ "(" ++ (if b then "true" else "false") ++ ")"
  | .identifier name => t.kindLabel ++ "(" ++ Text.quoted name ++ ")"
  | _ => t.kindLabel

end Token

end LiveNotes.Script
