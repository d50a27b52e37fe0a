import StyleTree.SExp.Basic

/-!
# `StyleTree.SExp.Print` — expressions as text

A list shows its leading atoms on the line of its opening parenthesis. The first nested list, and everything
behind it, goes on lines of its own, one step deeper than the list around it. So a list of nodes has one
node to a line.

What stands in front of an element depends only on how the elements before it were laid out (`Place.lead`).
`SExp.write` puts the characters of an expression in front of a text without looking at that text
(`write_append`), and `SExp.print` is the expression alone, with a width of two for each step unless another is
given.
-/

namespace StyleTree

/-- How the elements of a list have been laid out so far. -/
inductive Place where
  /-- There are none. -/
  | first
  /-- They stand on the line of the opening parenthesis. -/
  | sameLine
  /-- At least one stands on a line of its own. -/
  | ownLine
deriving DecidableEq, Repr

namespace Place

/-- Where the next element goes. -/
def next (place : Place) (e : SExp) : Place :=
  if e.isList || place == .ownLine then .ownLine else .sameLine

/-- What stands between the elements before `e` and `e` itself: a line break and the margin, a blank, or
    nothing. -/
def lead (place : Place) (margin : Nat) (e : SExp) : List Char :=
  match place.next e, place with
  | .ownLine, _ => '\n' :: List.replicate margin ' '
  | _, .first => []
  | _, _ => [' ']

end Place

namespace SExp

mutual

/-- Writes an expression that stands `depth` steps deep, each step `indent` blanks wide, in front of a text. -/
def write (indent depth : Nat) (e : SExp) (behind : List Char) : List Char :=
  match e with
  | .atom a _ => a.spelling ++ behind
  | .list elements _ => '(' :: writeRest indent (depth + 1) .first elements behind

/-- Writes the elements left in a list, and its closing parenthesis, in front of a text. -/
def writeRest (indent depth : Nat) (place : Place) (elements : List SExp) (behind : List Char) : List Char :=
  match elements with
  | [] => ')' :: behind
  | e :: es =>
    place.lead (depth * indent) e
      ++ write indent depth e (writeRest indent depth (place.next e) es behind)

end

mutual

/-- What is written for an expression does not depend on the text behind it. -/
theorem write_append (indent depth : Nat) (e : SExp) (behind more : List Char) :
    write indent depth e (behind ++ more) = write indent depth e behind ++ more := by
  cases e with
  | atom a pos => simp [write]
  | list elements pos => simp [write, writeRest_append]

theorem writeRest_append (indent depth : Nat) (place : Place) (elements : List SExp)
    (behind more : List Char) :
    writeRest indent depth place elements (behind ++ more)
      = writeRest indent depth place elements behind ++ more := by
  cases elements with
  | nil => simp [writeRest]
  | cons e es => simp [writeRest, writeRest_append, write_append]

end

/-- The width of a step where nothing else is asked for. -/
def defaultIndent : Nat := 2

/-- An expression as text, each step of nesting `indent` blanks wide. -/
def print (e : SExp) (indent : Nat := defaultIndent) : String :=
  String.ofList (write indent 0 e [])

end SExp

end StyleTree
