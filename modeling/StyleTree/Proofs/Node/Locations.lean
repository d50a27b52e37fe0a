import StyleTree.Proofs.Inherit.Renaming

/-!
# `Proofs.Node.Locations` — trees apart from where their nodes were declared

A tree with other locations is a tree under other names that calls nothing else by another name (`relocate`). If all
locations are made alike, what is left of a tree is its shape, its kinds and its flags: `relocate_eq_iff` says so node
by node.
-/

namespace StyleTree

/-- Other locations, and no other names. -/
def Renaming.moving (move : Location → Location) : Renaming where
  selector := id
  location := move
  other := id
  target := id

namespace Node

/-- To move a node is not to change what it is. -/
theorem Kind.rename_moving (move : Location → Location) (kind : Kind) : kind.rename (.moving move) = kind := by
  cases kind with
  | rule selector => cases selector <;> rfl
  | inherit target => rfl
  | other tag text => rfl

/-- The tree with other locations. -/
def relocate (move : Location → Location) (n : Node) : Node :=
  n.rename (.moving move)

section

variable (move : Location → Location) (n : Node)

@[simp] theorem relocate_kind : (n.relocate move).kind = n.kind := by
  rw [relocate, rename_kind, Kind.rename_moving]

@[simp] theorem relocate_children : (n.relocate move).children = n.children.map (relocate move) :=
  rename_children _ n

@[simp] theorem relocate_inherited : (n.relocate move).inherited = n.inherited :=
  rename_inherited _ n

@[simp] theorem relocate_location : (n.relocate move).location = move n.location :=
  rename_location _ n

end

/-- Two trees are alike but for locations if their roots are and their children are. -/
theorem relocate_eq_iff {move : Location → Location} {n m : Node} :
    n.relocate move = m.relocate move ↔ n.kind = m.kind ∧ n.inherited = m.inherited ∧
      move n.location = move m.location ∧ n.children.map (relocate move) = m.children.map (relocate move) := by
  constructor
  · intro h
    have hkind := congrArg Node.kind h
    have hinherited := congrArg Node.inherited h
    have hlocation := congrArg Node.location h
    have hchildren := congrArg Node.children h
    simp only [relocate_kind, relocate_inherited, relocate_location, relocate_children]
      at hkind hinherited hlocation hchildren
    exact ⟨hkind, hinherited, hlocation, hchildren⟩
  · rintro ⟨hkind, hinherited, hlocation, hchildren⟩
    obtain ⟨kind, children, inherited, location⟩ := n
    obtain ⟨kind', children', inherited', location'⟩ := m
    cases hkind
    cases hinherited
    change move location = move location' at hlocation
    change children.map (relocate move) = children'.map (relocate move) at hchildren
    rw [relocate, relocate, rename, rename, renameAll_eq_map, renameAll_eq_map]
    exact congr (congrFun (congrArg (mk _) hchildren) _) hlocation

end Node

end StyleTree
