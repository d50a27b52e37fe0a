import StyleTree.Json.Print
import StyleTree.Json.Read
import StyleTree.Node.Basic

/-!
# `StyleTree.Node.Json` — trees as JSON

A node is an object: its `type`, the members of that type, its children if it has any, `inherited` if it is,
and its location (`Node.toJson`). A reader takes the members in any order and ignores keys that it does not
know, but no key that it looks for may occur twice. `Node.ofJsonText?` reads a text, and goes no deeper than
`Node.readDepth` into it.
-/

namespace StyleTree

namespace Location

/-- A location as JSON. -/
def toJson (location : Location) : Json :=
  .object [("filename", .string location.filename), ("line", .natural location.line)]

/-- Reads a file name and a line that fits a machine word. -/
def ofValues? : Json → Json → Option Location
  | .string filename, .natural line => if line < wordBound then some ⟨filename, line⟩ else none
  | _, _ => none

/-- Reads a location: an object, or the file name and the line as an array. -/
def ofJson? : Json → Option Location
  | .array [filename, line] => ofValues? filename line
  | .object members => do
    let filename ← (← Json.member? members "filename")
    let line ← (← Json.member? members "line")
    ofValues? filename line
  | _ => none

end Location

namespace Node

/-! ## Writing -/

/-- A text or `null`. -/
def optionalString : Option String → Json
  | some s => .string s
  | none => .null

/-- The members that tell what a node is. -/
def Kind.members : Kind → List (String × Json)
  | .rule selector => [("type", .string "rule"), ("resolved_selector", optionalString selector)]
  | .inherit target => [("type", .string "inherit"), ("target", .string target)]
  | .other tag text =>
    [("type", .string "other"), ("tag", .string tag), ("text", optionalString text)]

mutual

/-- A tree as JSON. -/
def toJson : Node → Json
  | ⟨kind, children, inherited, location⟩ =>
    .object (
      kind.members
        ++ (if children.isEmpty then [] else [("children", .array (toJsons children))])
        ++ (if inherited then [("inherited", .bool true)] else [])
        ++ [("location", location.toJson)])

/-- Several trees as JSON. -/
def toJsons : List Node → List Json
  | [] => []
  | n :: ns => toJson n :: toJsons ns

end

/-! ## Reading -/

/-- A text, if the member is there; a missing member counts as `null`. -/
def optionalText? : Option Json → Option (Option String)
  | none | some .null => some none
  | some (.string s) => some (some s)
  | some _ => none

/-- A text that has to be there. -/
def text? : Option Json → Option String
  | some (.string s) => some s
  | _ => none

/-- Reads what a node is from its members. The type may also be given by its number. -/
def Kind.ofMembers? (members : List (String × Json)) : Option Kind := do
  match ← (← Json.member? members "type") with
  | .string "rule" | .natural 0 =>
    return .rule (← optionalText? (← Json.member? members "resolved_selector"))
  | .string "inherit" | .natural 1 =>
    return .inherit (← text? (← Json.member? members "target"))
  | .string "other" | .natural 2 =>
    let tag ← text? (← Json.member? members "tag")
    return .other tag (← optionalText? (← Json.member? members "text"))
  | _ => none

/-- Reads whether a node is inherited; it is not, if the member is missing. -/
def inherited? : Option Json → Option Bool
  | none => some false
  | some (.bool b) => some b
  | some _ => none

/-- The keys that every node has in common. -/
def commonKeys : List String := ["children", "inherited", "location"]

/-- Reads everything about a node but its children. Members that not every node has are held as values before
    the kind is known, so they have to stand for something even where they are ignored. -/
def ofMembers? (members : List (String × Json)) : Option Node := do
  let own := members.filter fun m => !commonKeys.contains m.1
  guard (Json.membersSound own)
  let kind ← Kind.ofMembers? own
  let inherited ← inherited? (← Json.member? members "inherited")
  let location ← Location.ofJson? (← (← Json.member? members "location"))
  return { kind, inherited, location }

mutual

/-- Reads a tree. -/
def ofJson? : Json → Option Node
  | .object members =>
    match ofMembers? members, childLists? members with
    | some n, some [] => some n
    | some n, some [children] => some { n with children }
    | _, _ => none
  | _ => none

/-- Reads the trees of each member that lists children. -/
def childLists? : List (String × Json) → Option (List (List Node))
  | [] => some []
  | (key, value) :: members =>
    if key == "children" then
      match ofArray? value, childLists? members with
      | some children, some lists => some (children :: lists)
      | _, _ => none
    else childLists? members

/-- Reads an array of trees. -/
def ofArray? : Json → Option (List Node)
  | .array elements => ofJsons? elements
  | _ => none

/-- Reads several trees. -/
def ofJsons? : List Json → Option (List Node)
  | [] => some []
  | value :: values =>
    match ofJson? value, ofJsons? values with
    | some n, some ns => some (n :: ns)
    | _, _ => none

end

/-! ## Texts -/

mutual

/-- How deep a reader of a tree goes into arrays and objects. Of a location it only looks at the members it
    needs and passes over the others. -/
def readDepth : Json → Nat
  | .object members => readDepthOfMembers members + 1
  | value => value.depth

/-- The greatest depth of the members of a node. -/
def readDepthOfMembers : List (String × Json) → Nat
  | [] => 0
  | (key, value) :: members =>
    let depth :=
      if key == "location" then min value.depth 1
      else if key == "children" then readDepthOfArray value
      else value.depth
    max depth (readDepthOfMembers members)

/-- The depth of an array of trees. -/
def readDepthOfArray : Json → Nat
  | .array elements => readDepthOfElements elements + 1
  | value => value.depth

/-- The greatest depth of several trees. -/
def readDepthOfElements : List Json → Nat
  | [] => 0
  | value :: values => max (readDepth value) (readDepthOfElements values)

end

/-- How deep a reader goes at most, so that no text can make it go arbitrarily deep. -/
def greatestDepth : Nat := 127

/-- Reads a tree from JSON text. -/
def ofJsonText? (text : String) : Option Node := do
  let value ← Json.parse? text
  guard (readDepth value ≤ greatestDepth)
  ofJson? value

end Node

end StyleTree
