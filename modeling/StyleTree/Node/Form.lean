import StyleTree.Node.Basic
import StyleTree.SExp.Basic

/-!
# `StyleTree.Node.Form` — the written form of one node

A node is written as a list with a name at its head. Behind the head stand, in any order, at most one further
atom, fields made of a keyword and a value, and nested lists for the children; only the atom has a place of
its own, before the first child.

`Form.split` finds these parts in one pass, in which a keyword takes whatever comes next as its value. What they
say about the node itself is its `Form.header`: the kind, the location, whether it is inherited, and that
nothing else was said.
-/

namespace StyleTree

/-- A keyword with the value behind it. -/
structure Field where
  /-- The name of the keyword. -/
  name : String
  /-- Where the keyword begins. -/
  pos : Position
  /-- The value. -/
  value : SExp

/-- The parts of a list that describes a node. -/
structure Form where
  /-- The name at the head. -/
  head : String
  /-- The atom that belongs to no field, if there is one. -/
  argument? : Option SExp
  /-- The fields, in their order. -/
  fields : List Field
  /-- The lists that belong to no field, in their order. -/
  children : List SExp

namespace Form

/-! ## Splitting -/

/-- The form with one more child in front. -/
def withChild (child : SExp) (form : Form) : Form :=
  { form with children := child :: form.children }

/-- The form with one more field in front. -/
def withField (field : Field) (form : Form) : Form :=
  { form with fields := field :: form.fields }

/-- The form with an argument. -/
def withArgument (argument : SExp) (form : Form) : Form :=
  { form with argument? := some argument }

/-- Splits what is left behind the head. An atom is welcome as long as there is neither an argument nor a
    child before it. -/
def splitRest (head : String) (atomWelcome : Bool) : List SExp → Except ReadError Form
  | [] => .ok ⟨head, none, [], []⟩
  | .list elements pos :: rest =>
    (splitRest head false rest).map (withChild (.list elements pos))
  | .atom a pos :: rest =>
    match a, rest with
    | .keyword name, [] => .error (.expected (.valueFor name) "end of list" pos)
    | .keyword name, value :: rest =>
      (splitRest head atomWelcome rest).map (withField ⟨name, pos, value⟩)
    | a, rest =>
      if atomWelcome then (splitRest head false rest).map (withArgument (.atom a pos))
      else .error (.expected .fieldOrChild a.describe pos)

/-- Splits the elements of a list that begins at the given place. -/
def split (elements : List SExp) (pos : Position) : Except ReadError Form :=
  match elements with
  | [] => .error (.expected .nodeName "empty list" pos)
  | first :: rest =>
    match first.asSymbol with
    | .error error => .error error
    | .ok head => splitRest head true rest

/-! ## Reading the parts -/

/-- The value of the first field of the given name. -/
def field? (form : Form) (name : String) : Option SExp :=
  (form.fields.find? fun field => field.name == name).map (·.value)

/-- The fields that a node may have. -/
def knownFields : List String := ["file", "line", "inherited"]

/-- Where the node was declared: in the file and on the line that its fields name, or else in the given
    file and on the line of the list itself. -/
def location (form : Form) (file : String) (pos : Position) : Except ReadError Location := do
  let filename ← match form.field? "file" with
    | some value => value.asString
    | none => .ok file
  let line ← match form.field? "line" with
    | some value => value.asNumber
    | none => .ok pos.line
  return ⟨filename, line⟩

/-- Whether the node came out of an inherited block: only if a field says so. -/
def inherited (form : Form) : Except ReadError Bool :=
  match form.field? "inherited" with
  | some value => value.asBool
  | none => .ok false

/-- Refuses the first field whose name no node knows. -/
def refuseUnknown (form : Form) : Except ReadError Unit :=
  match form.fields.find? fun field => !knownFields.contains field.name with
  | some field => .error (.unknownField field.name form.head field.pos)
  | none => .ok ()

/-- The argument of a form that cannot do without one. -/
def requireArgument (form : Form) (what : Expectation) (pos : Position) : Except ReadError SExp :=
  match form.argument? with
  | some argument => .ok argument
  | none => .error (.expected what "nothing" pos)

/-- What the node is. The head decides what argument the form has: a selector for a rule, a file for a
    marker, none for the stylesheet, and a text or none for any other tag. -/
def kind (form : Form) (pos : Position) : Except ReadError Node.Kind :=
  if form.head = Node.rootTag then
    match form.argument? with
    | some argument => .error (.expected .fieldOrChild argument.describe pos)
    | none => .ok (.other Node.rootTag none)
  else if form.head = "rule" then do
    let argument ← form.requireArgument .selector pos
    return .rule (← argument.asOptionalString)
  else if form.head = "inherit" then do
    let argument ← form.requireArgument .inheritedFile pos
    return .inherit (← argument.asString)
  else
    match form.argument? with
    | some argument => return .other form.head (← argument.asOptionalString)
    | none => return .other form.head none

/-- What a list says about its own node: the node without its children. The list begins at the given
    place, and a node that names no file comes from the given one. -/
def header (form : Form) (file : String) (pos : Position) : Except ReadError Node := do
  let location ← form.location file pos
  let inherited ← form.inherited
  form.refuseUnknown
  let kind ← form.kind pos
  return { kind, inherited, location }

end Form

end StyleTree
