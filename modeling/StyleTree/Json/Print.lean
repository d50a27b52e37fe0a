import StyleTree.Json.Basic
import StyleTree.Text.Basic

/-!
# `StyleTree.Json.Print` — JSON values as text

Two layouts: on one line without any blank (`Json.compact`), and with a line for each element and member, two
blanks deeper than the value around it (`Json.pretty`). An empty array or object stays on one line in either. In
strings the quote, the backslash and the controls of ASCII are escaped; every other character stands for
itself.
-/

namespace StyleTree.Json

/-! ## Strings -/

/-- A character inside a string. The controls without a short escape are written as their code point, in
    four hexadecimal digits. -/
def encodeChar (c : Char) : List Char :=
  match c with
  | '"' => ['\\', '"']
  | '\\' => ['\\', '\\']
  | '\x08' => ['\\', 'b']
  | '\x0c' => ['\\', 'f']
  | '\n' => ['\\', 'n']
  | '\r' => ['\\', 'r']
  | '\t' => ['\\', 't']
  | c =>
    if c.toNat < 0x20 then
      ['\\', 'u', '0', '0', Nat.digitChar (c.toNat / 16), Nat.digitChar (c.toNat % 16)]
    else [c]

/-- A string with its quotes. -/
def encodeString (s : String) : List Char :=
  '"' :: s.toList.flatMap encodeChar ++ ['"']

/-- A value that is neither array nor object. What stands for no value is written as `null`. -/
def encodeScalar : Json → List Char
  | .null | .invalid => "null".toList
  | .bool true => "true".toList
  | .bool false => "false".toList
  | .natural n => decimal n
  | .numeral literal => literal.toList
  | .string s => encodeString s
  | .array _ | .object _ => []

/-! ## Layouts

A layout is fixed by what stands before each element and closing bracket and behind the colon of a member. -/

/-- The blanks and line breaks of a layout. -/
structure Spacing where
  /-- What stands before an element or a closing bracket that is this many steps deep. -/
  lead : Nat → List Char
  /-- What stands behind the colon of a member. -/
  behindColon : List Char

/-- No blanks and no line breaks. -/
def Spacing.none : Spacing := ⟨fun _ => [], []⟩

/-- Each element and closing bracket on a line of its own, two blanks for each step. -/
def Spacing.lines : Spacing := ⟨fun depth => '\n' :: List.replicate (2 * depth) ' ', [' ']⟩

/-- What stands before an element or member that is this many steps deep. The flag says whether it is the first
    one. -/
def Spacing.separator (spacing : Spacing) (depth : Nat) (first : Bool) : List Char :=
  if first then spacing.lead depth else ',' :: spacing.lead depth

/-- What stands before the closing bracket that is this many steps deep. The flag says whether there is nothing
    inside. -/
def Spacing.ending (spacing : Spacing) (depth : Nat) (empty : Bool) : List Char :=
  if empty then [] else spacing.lead depth

/-- The key of a member and its colon. -/
def memberKey (spacing : Spacing) (key : String) : List Char :=
  encodeString key ++ ':' :: spacing.behindColon

mutual

/-- Writes a value that stands `depth` steps deep in front of a text. -/
def write (spacing : Spacing) (depth : Nat) (value : Json) (behind : List Char) : List Char :=
  match value with
  | .array elements => '[' :: writeElements spacing depth true elements behind
  | .object members => '\x7b' :: writeMembers spacing depth true members behind
  | scalar => encodeScalar scalar ++ behind

/-- Writes the elements left of an array that stands `depth` steps deep, and its closing bracket, in front of a
    text. The flag says whether no element has been written yet. -/
def writeElements (spacing : Spacing) (depth : Nat) (first : Bool) (elements : List Json)
    (behind : List Char) : List Char :=
  match elements with
  | [] => spacing.ending depth first ++ ']' :: behind
  | e :: es =>
    spacing.separator (depth + 1) first
      ++ write spacing (depth + 1) e (writeElements spacing depth false es behind)

/-- Writes the members left of an object that stands `depth` steps deep, and its closing bracket, in front of a
    text. The flag says whether no member has been written yet. -/
def writeMembers (spacing : Spacing) (depth : Nat) (first : Bool) (members : List (String × Json))
    (behind : List Char) : List Char :=
  match members with
  | [] => spacing.ending depth first ++ '\x7d' :: behind
  | (key, value) :: ms =>
    spacing.separator (depth + 1) first ++ (memberKey spacing key
      ++ write spacing (depth + 1) value (writeMembers spacing depth false ms behind))

end

/-- The value on one line. -/
def compact (value : Json) : String :=
  String.ofList (write .none 0 value [])

/-- The value with a line for each element and member. -/
def pretty (value : Json) : String :=
  String.ofList (write .lines 0 value [])

end StyleTree.Json
