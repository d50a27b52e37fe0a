/-!
# `StyleTree.Position` — places in a text and in a stylesheet

A position is a place in a text in tree notation. It is counted in three ways at once: bytes of UTF-8 from the
start of the text, lines from one, and characters of the line from one. Only a line feed starts a new line.

A location is a place in the stylesheet that a tree describes: a node remembers the file and the line it was
declared on, whatever notation the tree was written in.
-/

namespace StyleTree

/-! ## Positions -/

/-- A place in a source text. -/
structure Position where
  /-- Bytes of UTF-8 before the place. -/
  offset : Nat
  /-- The line, counted from one. -/
  line : Nat
  /-- The character within the line, counted from one. -/
  column : Nat
deriving DecidableEq, Repr, Inhabited

namespace Position

/-- The place of the first character. -/
def start : Position := ⟨0, 1, 1⟩

/-- The position of what was built and not read: no text has a line zero. -/
def synthetic : Position := ⟨0, 0, 0⟩

/-- The place after the given character. -/
def advance (p : Position) (c : Char) : Position :=
  if c = '\n' then ⟨p.offset + c.utf8Size, p.line + 1, 1⟩
  else ⟨p.offset + c.utf8Size, p.line, p.column + 1⟩

/-- The place after the given characters. -/
def advanceAll (p : Position) (text : List Char) : Position :=
  text.foldl advance p

@[simp] theorem advanceAll_nil (p : Position) : p.advanceAll [] = p := rfl

@[simp] theorem advanceAll_cons (p : Position) (c : Char) (text : List Char) :
    p.advanceAll (c :: text) = (p.advance c).advanceAll text := rfl

theorem advanceAll_append (p : Position) (text more : List Char) :
    p.advanceAll (text ++ more) = (p.advanceAll text).advanceAll more :=
  List.foldl_append

instance : ToString Position where
  toString p := s!"line {p.line}, column {p.column}"

end Position

/-! ## Locations -/

/-- Where a node was declared. -/
structure Location where
  /-- The stylesheet file. -/
  filename : String
  /-- The line, counted from one. -/
  line : Nat
deriving DecidableEq, Repr

namespace Location

/-- The file name of trees that were read from standard input or built in memory. -/
def anonymousFile : String := "-"

/-- A line of no particular file. -/
def anonymous (line : Nat) : Location := ⟨anonymousFile, line⟩

/-- Another line of the same file. -/
def withLine (location : Location) (line : Nat) : Location :=
  { location with line }

instance : ToString Location where
  toString location := s!"{location.filename}:{location.line}"

end Location

end StyleTree
