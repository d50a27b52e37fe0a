import StyleTree.Text.Quoted
import StyleTree.Token.Basic

/-!
# `StyleTree.ReadError` — why a text is not a tree

Reading goes from characters to tokens, from tokens to an expression and from the expression to a tree; each
step has its own ways to fail, and all of them end here. Most name a place (`ReadError.pos?`), and many name
what was wanted there (`Expectation`).
-/

namespace StyleTree

/-- What a reader wanted where it found something else. -/
inductive Expectation where
  /-- A name. -/
  | symbol
  /-- A quoted string. -/
  | string
  /-- A quoted string or the absent value. -/
  | stringOrNil
  /-- A number. -/
  | number
  /-- A number that fits a machine word and has no minus sign. -/
  | unsignedNumber
  /-- A truth value. -/
  | truthValue
  /-- A list. -/
  | list
  /-- The name at the head of a node. -/
  | nodeName
  /-- The value of the named field. -/
  | valueFor (field : String)
  /-- A keyword with its value, or a nested list. -/
  | fieldOrChild
  /-- The selector of a rule. -/
  | selector
  /-- The name of the inherited file. -/
  | inheritedFile
deriving DecidableEq, Repr

/-- The name of the thing wanted. -/
def Expectation.phrase : Expectation → String
  | .symbol => "symbol"
  | .string => "string"
  | .stringOrNil => "string or nil"
  | .number => "number"
  | .unsignedNumber => "non-negative number"
  | .truthValue => "true or false"
  | .list => "list"
  | .nodeName => "node name"
  | .valueFor field => s!"value for :{field}"
  | .fieldOrChild => "field or child node"
  | .selector => "selector string or nil"
  | .inheritedFile => "inherited file name"

/-- Why a text or an expression cannot be read. -/
inductive ReadError where
  /-- The text has no token list. -/
  | lex (error : LexError)
  /-- A token stands behind the end of the expression. -/
  | unexpectedToken (lexeme : String) (pos : Position)
  /-- One thing was wanted and another found. -/
  | expected (what : Expectation) (found : String) (pos : Position)
  /-- No node has a field of this name. -/
  | unknownField (field node : String) (pos : Position)
  /-- The list that begins here has no end. -/
  | unterminatedList (pos : Position)
  /-- A closing parenthesis stands where an expression should begin. -/
  | unexpectedCloseParen (pos : Position)
  /-- There is nothing to read. -/
  | emptyInput
deriving DecidableEq, Repr

namespace ReadError

/-- The place that the error names, if it names one. -/
def pos? : ReadError → Option Position
  | .lex error => some error.pos
  | .unexpectedToken _ pos | .expected _ _ pos | .unknownField _ _ pos => some pos
  | .unterminatedList pos | .unexpectedCloseParen pos => some pos
  | .emptyInput => none

/-- The error in words. -/
def message : ReadError → String
  | .lex error => s!"Lexer error: {error.message}"
  | .unexpectedToken lexeme pos => s!"Unexpected token {quoted lexeme} at {pos}"
  | .expected what found pos => s!"Expected {what.phrase}, found {found} at {pos}"
  | .unknownField field node pos => s!"Unknown field ':{field}' on {node} at {pos}"
  | .unterminatedList pos => s!"Unterminated list at {pos}"
  | .unexpectedCloseParen pos => s!"Unexpected closing parenthesis at {pos}"
  | .emptyInput => "Empty input"

end ReadError

end StyleTree
