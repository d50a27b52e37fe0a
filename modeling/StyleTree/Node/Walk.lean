import StyleTree.Node.Basic

/-!
# `StyleTree.Node.Walk` — visiting a tree

Whoever only looks at a tree visits each node and then its descendants, child by child (`Node.preorder`). To
count nodes of some sort is to count them in that list.
-/

namespace StyleTree.Node

mutual

/-- The node and then its descendants, depth first and in child order. -/
def preorder : Node → List Node
  | ⟨kind, children, inherited, location⟩ =>
    ⟨kind, children, inherited, location⟩ :: preorderAll children

/-- The nodes of several trees, one tree after the other. -/
def preorderAll : List Node → List Node
  | [] => []
  | n :: ns => n.preorder ++ preorderAll ns

end

theorem preorder_eq (n : Node) : n.preorder = n :: preorderAll n.children := by
  cases n
  rfl

/-- The number of nodes with the given property, the root included. -/
def count (n : Node) (property : Node → Bool) : Nat :=
  n.preorder.countP property

/-- The number of nodes of a tree. -/
def countNodes (n : Node) : Nat :=
  n.count fun _ => true

/-- The number of markers of a tree. -/
def countMarkers (n : Node) : Nat :=
  n.count isMarker

end StyleTree.Node
