import StyleTree.ReadError

/-!
# `StyleTree.SExp.Basic` — expressions of tree notation

An expression is an atom or a list of expressions, and every part knows the place where it begins. Atoms keep
their text as written, numbers included, so that whoever needs a value decides what counts as one. Expressions
that come from no text are made with `symbol`, `ofList` and the like.

`subexpressions` lists an expression and all its parts in the order in which they are written. Whoever reads an
expression as one kind of value asks for it by `asSymbol`, `asNumber` and so on, and is told what was wanted, what
was found instead, and where.
-/

namespace StyleTree

/-- An expression that is no list. -/
inductive Atom where
  /-- A name. -/
  | symbol (name : String)
  /-- A name after a colon; the colon is not part of it. -/
  | keyword (name : String)
  /-- A text, with its escapes resolved. -/
  | string (value : String)
  /-- A number as it was written. -/
  | number (text : String)
  /-- The absent value. -/
  | nil
deriving DecidableEq, Repr, Inhabited

/-- An expression. The position of a list is that of its opening parenthesis. -/
inductive SExp where
  /-- An atom. -/
  | atom (atom : Atom) (pos : Position)
  /-- A list. -/
  | list (elements : List SExp) (pos : Position)
deriving Repr, Inhabited

/-- How an atom is written. -/
def Atom.spelling : Atom → List Char
  | .symbol name => name.toList
  | .keyword name => ':' :: name.toList
  | .string value => quotedLiteral value
  | .number text => text.toList
  | .nil => ['n', 'i', 'l']

/-- How a diagnostic names an atom. -/
def Atom.describe : Atom → String
  | .symbol name => s!"symbol '{name}'"
  | .keyword name => s!"keyword ':{name}'"
  | .string value => s!"string {quoted value}"
  | .number text => s!"number {text}"
  | .nil => "nil"

namespace SExp

/-! ## Building -/

/-- A symbol that was not read from a text. -/
def symbol (name : String) : SExp := .atom (.symbol name) .synthetic

/-- A keyword that was not read from a text. -/
def keyword (name : String) : SExp := .atom (.keyword name) .synthetic

/-- A string that was not read from a text. -/
def string (value : String) : SExp := .atom (.string value) .synthetic

/-- A number that was not read from a text. -/
def number (n : Nat) : SExp := .atom (.number (String.ofList (decimal n))) .synthetic

/-- An absent value that was not read from a text. -/
def nil : SExp := .atom .nil .synthetic

/-- A list that was not read from a text. -/
def ofList (elements : List SExp) : SExp := .list elements .synthetic

/-! ## Looking inside -/

/-- Where the expression begins. -/
def position : SExp → Position
  | .atom _ pos => pos
  | .list _ pos => pos

/-- The name at the head of a list: its first element, if that is a symbol. -/
def head? : SExp → Option String
  | .list (.atom (.symbol name) _ :: _) _ => some name
  | _ => none

/-- Whether the expression is a list. -/
def isList : SExp → Bool
  | .list _ _ => true
  | .atom _ _ => false

/-- Whether the expression is a keyword. -/
def isKeyword : SExp → Bool
  | .atom (.keyword _) _ => true
  | _ => false

/-- How a diagnostic names the expression. A list is named by its head alone. -/
def describe : SExp → String
  | .atom a _ => a.describe
  | e@(.list _ _) =>
    match e.head? with
    | some name => s!"({name} ...)"
    | none => "list"

mutual

/-- The expression, then its elements and their parts, from left to right. -/
def subexpressions : SExp → List SExp
  | .atom a pos => [.atom a pos]
  | .list elements pos => .list elements pos :: subexpressionsAll elements

/-- The parts of several expressions, one expression after the other. -/
def subexpressionsAll : List SExp → List SExp
  | [] => []
  | e :: es => e.subexpressions ++ subexpressionsAll es

end

/-! ## The values that expressions stand for -/

/-- The error for an expression that stands where something else was wanted. -/
def mismatch (e : SExp) (what : Expectation) : ReadError :=
  .expected what e.describe e.position

/-- The name that a symbol is. -/
def asSymbol : SExp → Except ReadError String
  | .atom (.symbol name) _ => .ok name
  | e => .error (e.mismatch .symbol)

/-- The text that a string stands for. -/
def asString : SExp → Except ReadError String
  | .atom (.string value) _ => .ok value
  | e => .error (e.mismatch .string)

/-- The text that a string stands for, or nothing for the absent value. -/
def asOptionalString : SExp → Except ReadError (Option String)
  | .atom (.string value) _ => .ok (some value)
  | .atom .nil _ => .ok none
  | e => .error (e.mismatch .stringOrNil)

/-- The value of a number that has no minus sign and fits a machine word. -/
def asNumber : SExp → Except ReadError Nat
  | .atom (.number text) pos =>
    match unsigned? text.toList with
    | some n => .ok n
    | none => .error (.expected .unsignedNumber text pos)
  | e => .error (e.mismatch .number)

/-- The truth value that one of two symbols names. -/
def asBool : SExp → Except ReadError Bool
  | .atom (.symbol "true") _ => .ok true
  | .atom (.symbol "false") _ => .ok false
  | e => .error (e.mismatch .truthValue)

/-- The elements of a list and where it begins. -/
def asList : SExp → Except ReadError (List SExp × Position)
  | .list elements pos => .ok (elements, pos)
  | e => .error (e.mismatch .list)

end SExp

end StyleTree
