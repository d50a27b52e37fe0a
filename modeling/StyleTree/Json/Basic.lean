/-!
# `StyleTree.Json.Basic` — JSON values

A value keeps the members of an object in their order and with repetitions, since a reader of a record must
notice a key that occurs twice (`Json.member?`). Whole numbers without a sign are kept as numbers; nothing here
computes with any other number, so those keep their spelling.

What is written like a value may stand for none, for example a string with half of a surrogate pair. A reader
that passes over it never notices, so it is a value too, and `Json.isSound` tells it from the others.
-/

namespace StyleTree

/-- A JSON value. -/
inductive Json where
  /-- The value `null`. -/
  | null
  /-- A truth value. -/
  | bool (b : Bool)
  /-- A number written with digits only. -/
  | natural (n : Nat)
  /-- Any other number, as it was written. -/
  | numeral (literal : String)
  /-- A string. -/
  | string (s : String)
  /-- An array. -/
  | array (elements : List Json)
  /-- An object, its members in the order of the text. -/
  | object (members : List (String × Json))
  /-- What is written like a value and stands for none. -/
  | invalid
deriving Repr, Inhabited

namespace Json

/-- The value of the key among the members, if there is one; fails if there are several. -/
def member? (members : List (String × Json)) (key : String) : Option (Option Json) :=
  match members.filter fun m => m.1 == key with
  | [] => some none
  | [m] => some (some m.2)
  | _ => none

/-! ## Measures -/

mutual

/-- How many arrays and objects are nested in each other. -/
def depth : Json → Nat
  | .array elements => depthOfElements elements + 1
  | .object members => depthOfMembers members + 1
  | .null | .bool _ | .natural _ | .numeral _ | .string _ | .invalid => 0

/-- The greatest depth of the elements of an array. -/
def depthOfElements : List Json → Nat
  | [] => 0
  | value :: values => max (depth value) (depthOfElements values)

/-- The greatest depth of the values in an object. -/
def depthOfMembers : List (String × Json) → Nat
  | [] => 0
  | (_, value) :: members => max (depth value) (depthOfMembers members)

end

mutual

/-- Whether everything in the value stands for something. -/
def isSound : Json → Bool
  | .invalid => false
  | .array elements => elementsSound elements
  | .object members => membersSound members
  | .null | .bool _ | .natural _ | .numeral _ | .string _ => true

/-- Whether everything in the elements of an array stands for something. -/
def elementsSound : List Json → Bool
  | [] => true
  | value :: values => isSound value && elementsSound values

/-- Whether everything in the values of an object stands for something. -/
def membersSound : List (String × Json) → Bool
  | [] => true
  | (_, value) :: members => isSound value && membersSound members

end

end Json

end StyleTree
