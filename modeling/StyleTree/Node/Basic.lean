import StyleTree.Failure

/-!
# `StyleTree.Node.Basic` — stylesheet trees

A stylesheet is a tree of rules, of markers for `@inherit` directives, and of everything else: declarations,
comments, at-rules and the stylesheet itself. The children of a marker are the block it inherits.

A rule need not have a selector. `Node.selector?` asks for one and is content with none, whereas `selectorKey`
says why there is none. Unless they say otherwise, the children of a marker come from the inherited file, and
those of any other node from its own file (`Node.Kind.childFile`).
-/

namespace StyleTree

/-- What a node is. -/
inductive Node.Kind where
  /-- A style rule with its selector, if an earlier stage has resolved it. -/
  | rule (selector : Option String)
  /-- The marker of an `@inherit` directive, with the name of the file it inherits from. -/
  | inherit (target : String)
  /-- Anything else: its tag, and its text if it has one. -/
  | other (tag : String) (text : Option String)
deriving DecidableEq, Repr

/-- A stylesheet tree. -/
structure Node where
  /-- What the node is. -/
  kind : Node.Kind
  /-- The nodes inside it, in their order. -/
  children : List Node := []
  /-- Whether the node came out of an inherited block. -/
  inherited : Bool := false
  /-- Where the node was declared. -/
  location : Location
deriving Repr

namespace Node

/-- The short name of a kind, by which diagnostics and dumps call it. -/
def Kind.name : Kind → String
  | .rule _ => "rule"
  | .inherit _ => "inherit"
  | .other tag _ => tag

/-- The file that the children of a node come from unless they say otherwise: the inherited file for a
    marker, the node's own file for anything else. -/
def Kind.childFile (own : String) : Kind → String
  | .inherit target => target
  | .rule _ | .other _ _ => own

/-! ## Building -/

/-- The tag of the node at the top of a stylesheet. -/
def rootTag : String := "stylesheet"

/-- A node without children on the first line of no particular file. -/
def ofKind (kind : Kind) : Node :=
  { kind, location := .anonymous 1 }

/-- The top of a stylesheet. -/
def root (filename : String) : Node :=
  { kind := .other rootTag none, location := ⟨filename, 1⟩ }

/-- A rule with a resolved selector. -/
def rule (selector : String) : Node := ofKind (.rule (some selector))

/-- A rule whose selector was never resolved. -/
def unresolvedRule : Node := ofKind (.rule none)

/-- A marker that inherits from the given file. -/
def marker (target : String) : Node := ofKind (.inherit target)

/-- A node that is neither rule nor marker. -/
def other (tag text : String) : Node := ofKind (.other tag (some text))

/-- A declaration. -/
def declaration (text : String) : Node := other "prop" text

/-! ## Looking inside -/

/-- Whether the node is a rule. -/
def isRule (n : Node) : Bool :=
  match n.kind with
  | .rule _ => true
  | _ => false

/-- Whether the node is a marker. -/
def isMarker (n : Node) : Bool :=
  match n.kind with
  | .inherit _ => true
  | _ => false

/-- The selector of a resolved rule. -/
def selector? (n : Node) : Option String :=
  match n.kind with
  | .rule selector => selector
  | _ => none

/-- The selector of a rule, by which rules are told apart, or why the node has none. -/
def selectorKey (n : Node) : Except Failure String :=
  match n.kind with
  | .rule (some selector) => .ok selector
  | .rule none => .error { cause := .unresolvedSelector }
  | kind => .error { cause := .notARule kind.name }

/-! ## Equality

A node holds a list of nodes, so equality is decided by recursion on both trees at once. -/

mutual

/-- Whether two trees agree everywhere. -/
def same : Node → Node → Bool
  | ⟨kind₁, children₁, inherited₁, location₁⟩, ⟨kind₂, children₂, inherited₂, location₂⟩ =>
    kind₁ == kind₂ && sameAll children₁ children₂ && inherited₁ == inherited₂ && location₁ == location₂

/-- Whether two lists of trees agree tree by tree. -/
def sameAll : List Node → List Node → Bool
  | [], [] => true
  | n₁ :: ns₁, n₂ :: ns₂ => same n₁ n₂ && sameAll ns₁ ns₂
  | [], _ :: _ => false
  | _ :: _, [] => false

end

mutual

/-- Trees that compare as the same are equal, by recursion on both at once. -/
theorem eq_of_same : ∀ {n₁ n₂ : Node}, same n₁ n₂ = true → n₁ = n₂
  | ⟨_, children₁, _, _⟩, ⟨_, children₂, _, _⟩, h => by
    simp only [same, Bool.and_eq_true, beq_iff_eq] at h
    obtain ⟨⟨⟨hkind, hchildren⟩, hinherited⟩, hlocation⟩ := h
    rw [hkind, eq_of_sameAll hchildren, hinherited, hlocation]

theorem eq_of_sameAll : ∀ {ns₁ ns₂ : List Node}, sameAll ns₁ ns₂ = true → ns₁ = ns₂
  | [], [], _ => rfl
  | _ :: _, _ :: _, h => by
    simp only [sameAll, Bool.and_eq_true] at h
    rw [eq_of_same h.1, eq_of_sameAll h.2]
  | [], _ :: _, h => by simp [sameAll] at h
  | _ :: _, [], h => by simp [sameAll] at h

end

mutual

/-- Every tree compares as the same with itself. -/
theorem same_self : ∀ n : Node, same n n = true
  | ⟨_, children, _, _⟩ => by simp [same, sameAll_self children]

theorem sameAll_self : ∀ ns : List Node, sameAll ns ns = true
  | [] => by simp [sameAll]
  | n :: ns => by simp [sameAll, same_self n, sameAll_self ns]

end

theorem same_eq_true_iff {n₁ n₂ : Node} : same n₁ n₂ = true ↔ n₁ = n₂ :=
  ⟨eq_of_same, fun h => h ▸ same_self n₁⟩

instance : DecidableEq Node := fun n₁ n₂ =>
  decidable_of_iff (same n₁ n₂ = true) same_eq_true_iff

end Node

end StyleTree
