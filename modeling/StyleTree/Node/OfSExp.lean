import StyleTree.Node.Form
import StyleTree.SExp.Read

/-!
# `StyleTree.Node.OfSExp` — from expressions to trees

Each list becomes a node, and the lists in it that are no field values become its children (`Node.ofSExp`). A
node that names no file comes from the file of the node around it, or from the inherited file if that node is a
marker; a node that names no line is on the line where its list begins.
-/

namespace StyleTree.Node

mutual

/-- The tree that an expression describes, in the given file unless it names another. -/
def ofSExp (file : String) : SExp → Except ReadError Node
  | .atom a pos => .error ((SExp.atom a pos).mismatch .list)
  | .list elements pos =>
    match Form.split elements pos with
    | .error error => .error error
    | .ok form =>
      match form.header file pos with
      | .error error => .error error
      | .ok node =>
        match ofElements (node.kind.childFile node.location.filename) false elements with
        | .error error => .error error
        | .ok children => .ok { node with children }

/-- The trees that the elements of a list describe: one for each list among them that no keyword takes as
    its value. The flag says whether a keyword takes the next element. -/
def ofElements (file : String) (taken : Bool) : List SExp → Except ReadError (List Node)
  | [] => .ok []
  | e :: rest =>
    if taken then ofElements file false rest
    else if e.isList then
      match ofSExp file e with
      | .error error => .error error
      | .ok child =>
        match ofElements file false rest with
        | .error error => .error error
        | .ok children => .ok (child :: children)
    else ofElements file e.isKeyword rest

end

/-- The tree that a text describes, in the given file unless it names another. -/
def parse (text : String) (file : String := Location.anonymousFile) : Except ReadError Node :=
  match SExp.parse text with
  | .error error => .error error
  | .ok e => ofSExp file e

end StyleTree.Node
