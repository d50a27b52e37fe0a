import Mathlib.Data.List.Chain
import Mathlib.Data.List.Perm.Basic
import StyleTree.Node.Walk

/-!
# `Proofs.Node.Walk` — the nodes of a tree

What holds of a node if it holds of its children holds of all trees (`childInduction`). Most proofs about trees are
such inductions, with one case for the node and none for the list of its children.

Whoever looks at a tree visits the node first. Whoever takes one apart is done with the children before it is done
with the node, and while it works on a node, the nodes around it are still open: `postorder` lists each node with those.
The nodes are the same either way, `map_fst_postorder_perm`.
-/

namespace StyleTree.Node

/-! ## Induction and visits -/

/-- To prove something of all trees, prove it of a node whose children have it. -/
theorem childInduction {motive : Node → Prop} (step : ∀ n, (∀ child ∈ n.children, motive child) → motive n)
    (n : Node) : motive n :=
  step n fun child _ => childInduction step child
termination_by sizeOf n
decreasing_by
  rename_i hchild
  have hchildren : sizeOf child < sizeOf n.children := List.sizeOf_lt_of_mem hchild
  have hnode : sizeOf n.children < sizeOf n := by
    cases n
    simp only [mk.sizeOf_spec]
    omega
  exact Nat.lt_trans hchildren hnode

theorem preorderAll_eq_flatMap (ns : List Node) : preorderAll ns = ns.flatMap preorder := by
  induction ns with
  | nil => rfl
  | cons n ns ih => rw [preorderAll, ih, List.flatMap_cons]

/-- A tree is visited node first, then child by child. -/
theorem mem_preorder_iff {n p : Node} :
    p ∈ n.preorder ↔ p = n ∨ ∃ child ∈ n.children, p ∈ child.preorder := by
  rw [preorder_eq, List.mem_cons, preorderAll_eq_flatMap, List.mem_flatMap]

theorem mem_preorder_self (n : Node) : n ∈ n.preorder :=
  mem_preorder_iff.2 (.inl rfl)

theorem mem_preorder_of_child {n c p : Node} (hc : c ∈ n.children) (hp : p ∈ c.preorder) : p ∈ n.preorder :=
  mem_preorder_iff.2 (.inr ⟨c, hc, hp⟩)

/-- The children of a node of a tree are nodes of the tree. -/
theorem mem_preorder_of_mem_children {root p c : Node} (hp : p ∈ root.preorder) (hc : c ∈ p.children) :
    c ∈ root.preorder := by
  induction root using childInduction with
  | step root ih =>
    rcases mem_preorder_iff.1 hp with rfl | ⟨child, hchild, hp⟩
    · exact mem_preorder_of_child hc (mem_preorder_self c)
    · exact mem_preorder_of_child hchild (ih child hchild hp)

/-- Every node of a tree but the root is a child of exactly one node. -/
theorem preorder_perm (n : Node) : n.preorder.Perm (n :: n.preorder.flatMap children) := by
  induction n using childInduction with
  | step n ih =>
    have hchildren : (n.children.flatMap preorder).Perm
        (n.children ++ n.children.flatMap fun c => c.preorder.flatMap children) := by
      have hpeel : (n.children.flatMap preorder).Perm
          (n.children.flatMap fun c => [c] ++ c.preorder.flatMap children) :=
        List.Perm.flatMap_left _ fun c hc => ih c hc
      refine hpeel.trans ((List.flatMap_append_perm n.children (fun c => [c]) _).symm.trans ?_)
      rw [List.flatMap_singleton']
    rw [preorder_eq, preorderAll_eq_flatMap, List.flatMap_cons, List.flatMap_assoc]
    exact hchildren.cons n

/-! ## Children first -/

mutual

/-- The descendants of a node and then the node, depth first and in child order, each with the nodes around it from
    its parent out to the root. -/
def postorder : Node → List (Node × List Node)
  | ⟨kind, children, inherited, location⟩ =>
    (postorderAll children).map (fun place => (place.1, place.2 ++ [⟨kind, children, inherited, location⟩]))
      ++ [(⟨kind, children, inherited, location⟩, [])]

/-- The nodes of several trees, one tree after the other. -/
def postorderAll : List Node → List (Node × List Node)
  | [] => []
  | n :: ns => n.postorder ++ postorderAll ns

end

theorem postorder_eq (n : Node) :
    n.postorder = (postorderAll n.children).map (fun place => (place.1, place.2 ++ [n])) ++ [(n, [])] := by
  cases n; rfl

theorem postorderAll_eq_flatMap (ns : List Node) : postorderAll ns = ns.flatMap postorder := by
  induction ns with
  | nil => rfl
  | cons n ns ih => rw [postorderAll, ih, List.flatMap_cons]

theorem map_fst_postorder (n : Node) :
    n.postorder.map Prod.fst = (postorderAll n.children).map Prod.fst ++ [n] := by
  simp [postorder_eq]

/-- Children first or last, the nodes are the same. -/
theorem map_fst_postorder_perm (n : Node) : (n.postorder.map Prod.fst).Perm n.preorder := by
  induction n using childInduction with
  | step n ih =>
    have hchildren : ((postorderAll n.children).map Prod.fst).Perm (preorderAll n.children) := by
      rw [postorderAll_eq_flatMap, preorderAll_eq_flatMap, List.map_flatMap]
      exact List.Perm.flatMap_left _ ih
    rw [map_fst_postorder, preorder_eq]
    exact (hchildren.append_right [n]).trans (List.perm_append_singleton n _)

/-! ## The nodes around a node -/

/-- The nodes around a node lead from child to parent, up to the root. -/
theorem isChain_of_mem_postorder {root n : Node} {around : List Node} (h : (n, around) ∈ root.postorder) :
    List.IsChain (fun inner outer => inner ∈ outer.children) (n :: around) ∧
      (n :: around).getLast? = some root := by
  induction root using childInduction generalizing n around with
  | step root ih =>
    rw [postorder_eq, List.mem_append, List.mem_map, List.mem_singleton] at h
    rcases h with ⟨⟨m, inside⟩, hm, heq⟩ | heq
    · obtain ⟨rfl, rfl⟩ := Prod.mk.inj heq
      rw [postorderAll_eq_flatMap, List.mem_flatMap] at hm
      obtain ⟨child, hchild, hm⟩ := hm
      obtain ⟨hchain, hlast⟩ := ih child hchild hm
      -- The chain below the root ends at one of its children.
      rw [← List.cons_append]
      refine ⟨List.isChain_append.2 ⟨hchain, List.isChain_singleton root, ?_⟩, List.getLast?_concat⟩
      intro x hx y hy
      rw [hlast, Option.mem_some] at hx
      rw [List.head?_singleton, Option.mem_some] at hy
      exact hx ▸ hy ▸ hchild
    · obtain ⟨rfl, rfl⟩ := Prod.mk.inj heq
      exact ⟨List.isChain_singleton n, rfl⟩

end StyleTree.Node
