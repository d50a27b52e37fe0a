import StyleTree.Node.Basic
import StyleTree.SExp.Print

/-!
# `StyleTree.Node.ToSExp` — from trees to expressions

A node is written as a list: its name, its argument, its fields, and its children behind them (`Node.toSExp`).
Its location may be left out, and a file is named only where it is not the one that a reader would assume. As
text (`Node.print`) the expression takes a line for each node.
-/

namespace StyleTree.Node

/-- What stands behind the name of a node: the selector of a rule, the file of a marker, the text of
    anything else. -/
def Kind.argument : Kind → List SExp
  | .rule (some selector) => [.string selector]
  | .rule none => [.nil]
  | .inherit target => [.string target]
  | .other _ (some text) => [.string text]
  | .other _ none => []

/-- The fields that tell where a node was declared, for a reader who assumes the given file. -/
def locationFields (assumed : Option String) (location : Location) : List SExp :=
  (if assumed = some location.filename then [] else [.keyword "file", .string location.filename])
    ++ [.keyword "line", .number location.line]

/-- The field of a node that came out of an inherited block. -/
def inheritedField (inherited : Bool) : List SExp :=
  if inherited then [.keyword "inherited", .symbol "true"] else []

mutual

/-- A tree as an expression, for a reader who assumes the given file. -/
def toSExp (showLocations : Bool) (assumed : Option String) : Node → SExp
  | ⟨kind, children, inherited, location⟩ =>
    .ofList (
      .symbol kind.name :: kind.argument
        ++ (if showLocations then locationFields assumed location else [])
        ++ inheritedField inherited
        ++ toSExps showLocations (kind.childFile location.filename) children)

/-- The children of a node whose children come from the given file. -/
def toSExps (showLocations : Bool) (file : String) : List Node → List SExp
  | [] => []
  | n :: ns => toSExp showLocations (some file) n :: toSExps showLocations file ns

end

/-- A tree in tree notation, each step of nesting `indent` blanks wide. -/
def print (n : Node) (indent : Nat := SExp.defaultIndent) (showLocations : Bool := true) : String :=
  (n.toSExp showLocations none).print indent

end StyleTree.Node
