import StyleTree.ReadError
import StyleTree.SExp.Basic
import StyleTree.Token.Scan

/-!
# `StyleTree.SExp.Read` — from tokens to expressions

Tokens are read from left to right with the open lists on a stack: an opening parenthesis pushes a list, a
closing one completes the innermost list and hands it to the list around it, an atom goes to the innermost
list at once. An expression that no open list waits for is the result, and the tokens behind it are left for
the next reading.

`SExp.read` returns the tokens that it left alone in the case of a failure too, so that a caller can go on or
look at what follows. `SExp.parse` reads a text that holds exactly one expression, behind which `expectEnd`
refuses any further token.
-/

namespace StyleTree

/-- A list whose closing parenthesis has not been reached. -/
structure OpenList where
  /-- The place of the opening parenthesis. -/
  pos : Position
  /-- The elements so far, the latest first. -/
  reversed : List SExp

/-- The list with one more element. -/
def OpenList.push (l : OpenList) (e : SExp) : OpenList :=
  { l with reversed := e :: l.reversed }

/-- The list as its closing parenthesis leaves it. -/
def OpenList.close (l : OpenList) : SExp :=
  .list l.reversed.reverse l.pos

/-! ## One token at a time

A token takes the stack of open lists, innermost first, to another one, unless it ends the reading. -/

/-- What a token does to the reading. -/
inductive ReadStep where
  /-- The reading goes on inside these open lists. -/
  | inside (stack : List OpenList)
  /-- The expression is complete, and the token was its last. -/
  | complete (e : SExp)
  /-- There is no expression, and the token is left alone. -/
  | fail (error : ReadError)

namespace ReadStep

/-- An expression is complete: the innermost open list takes it, or it is the result. -/
def deliver (e : SExp) : List OpenList → ReadStep
  | [] => .complete e
  | innermost :: outer => .inside (innermost.push e :: outer)

/-- Why no expression can be read at the end of the tokens. -/
def atEnd : List OpenList → ReadError
  | [] => .emptyInput
  | innermost :: _ => .unterminatedList innermost.pos

/-- What the token does inside the given open lists. -/
def ofToken (stack : List OpenList) (token : Token) : ReadStep :=
  match token.kind with
  | .openParen => .inside (⟨token.pos, []⟩ :: stack)
  | .closeParen =>
    match stack with
    | [] => .fail (.unexpectedCloseParen token.pos)
    | innermost :: outer => deliver innermost.close outer
  | .symbol => deliver (.atom (.symbol token.lexeme) token.pos) stack
  | .keyword => deliver (.atom (.keyword token.lexeme) token.pos) stack
  | .string => deliver (.atom (.string token.lexeme) token.pos) stack
  | .number => deliver (.atom (.number token.lexeme) token.pos) stack
  | .nil => deliver (.atom .nil token.pos) stack
  | .endOfInput => .fail (atEnd stack)

end ReadStep

/-! ## Reading -/

namespace SExp

/-- Reads on inside the given open lists. -/
def readInside (stack : List OpenList) : List Token → Except ReadError SExp × List Token
  | [] => (.error (ReadStep.atEnd stack), [])
  | token :: tokens =>
    match ReadStep.ofToken stack token with
    | .inside stack => readInside stack tokens
    | .complete e => (.ok e, tokens)
    | .fail error => (.error error, token :: tokens)

/-- Takes one expression off a token list; returns it, or why there is none, with the tokens left. -/
def read (tokens : List Token) : Except ReadError SExp × List Token :=
  readInside [] tokens

/-- Refuses any token but the end mark. -/
def expectEnd : List Token → Except ReadError Unit
  | [] => .ok ()
  | token :: _ =>
    if token.kind = .endOfInput then .ok () else .error (.unexpectedToken token.lexeme token.pos)

/-- Reads a text that holds exactly one expression. -/
def parse (text : String) : Except ReadError SExp :=
  match Token.scan text with
  | .error error => .error (.lex error)
  | .ok tokens =>
    match read tokens with
    | (.error error, _) => .error error
    | (.ok e, rest) =>
      match expectEnd rest with
      | .error error => .error error
      | .ok () => .ok e

end SExp

end StyleTree
