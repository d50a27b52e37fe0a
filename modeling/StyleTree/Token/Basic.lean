import StyleTree.Position
import StyleTree.Text.Basic

/-!
# `StyleTree.Token.Basic` — tokens and the characters they are made of

Tree notation is written with parentheses, symbols, keywords, quoted strings, numbers and the word `nil`. Every
token list that the scanner makes is closed by one more token, `Token.endOfInput`.

The choices of the scanner rest on three tests of a character, `isSymbolStart`, `isSymbolChar` and
`startsNumber`. A text that has no token list fails with a `LexError`.
-/

namespace StyleTree

/-- What a token is. -/
inductive Token.Kind where
  /-- An opening parenthesis. -/
  | openParen
  /-- A closing parenthesis. -/
  | closeParen
  /-- A name. -/
  | symbol
  /-- A name after a colon. -/
  | keyword
  /-- A quoted literal. -/
  | string
  /-- A run of digits, possibly after a minus sign. -/
  | number
  /-- The word that stands for an absent value. -/
  | nil
  /-- The end of the text. -/
  | endOfInput
deriving DecidableEq, Repr

/-- A token: its kind, its reading and the place where it begins. The reading of a keyword is the name
    without the colon, that of a quoted literal the text it stands for. -/
structure Token where
  /-- What the token is. -/
  kind : Token.Kind
  /-- What the token reads as. -/
  lexeme : String
  /-- The place of its first character. -/
  pos : Position
deriving DecidableEq, Repr

/-- The mark at the end of a text. -/
def Token.endOfInput (pos : Position) : Token := ⟨.endOfInput, "", pos⟩

/-! ## Character classes -/

/-- Whether a symbol may begin with the character. At-rule names such as `@media` are symbols too. -/
def isSymbolStart (c : Char) : Bool :=
  isAlphabetic c || ['_', '-', '@', '*', '&', '!', '?', '<', '>', '='].contains c

/-- Whether the character may stand inside a symbol or a keyword. -/
def isSymbolChar (c : Char) : Bool :=
  isSymbolStart c || c.isDigit || ['.', '/', '+', '\''].contains c

/-- Whether a number begins here: a digit, or a minus sign with a digit right after it. -/
def startsNumber : List Char → Bool
  | '-' :: c :: _ => c.isDigit
  | c :: _ => c.isDigit
  | [] => false

/-! ## Failures -/

/-- Why a text cannot be split into tokens. -/
inductive LexError where
  /-- No token begins with this character. -/
  | unexpectedChar (c : Char) (pos : Position)
  /-- The quoted literal that begins here has no end. -/
  | unterminatedString (pos : Position)
  /-- A backslash stands before a character that it cannot escape; the position is that character's. -/
  | invalidEscape (c : Char) (pos : Position)
deriving DecidableEq, Repr

/-- The place that the error names. -/
def LexError.pos : LexError → Position
  | .unexpectedChar _ pos | .unterminatedString pos | .invalidEscape _ pos => pos

/-- The error in words. -/
def LexError.message : LexError → String
  | .unexpectedChar c pos => s!"Unexpected character '{c}' at {pos}"
  | .unterminatedString pos => s!"Unterminated string at {pos}"
  | .invalidEscape c pos => s!"Invalid escape sequence '\\{c}' at {pos}"

end StyleTree
