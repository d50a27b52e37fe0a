import StyleTree.Proofs.Inherit.Effective

/-!
# `Proofs.Inherit.Origins` — where the nodes of a resolved tree come from

A node of a resolved tree stood somewhere under the node whose scope it was in, and its children are what a run
leaves of its own children and of those of the native rules it took over (`Origin`). Below its root a resolved tree
consists of nodes of merged scopes (`exists_mem_merged`). So whatever two nodes of a resolved tree have to do with each
other can be traced back to nodes of the tree before the run.
-/

namespace StyleTree

namespace Node

/-! ## Origins -/

/-- The children that are taken over in the scope of a node are what a run leaves under its native rules. -/
theorem absorbed_scope (p : Node) (selector : String) :
    absorbed p.scope selector = (p.children.filter fun c => c.nativeSelector? = some selector).flatMap merged := by
  have hinherited : ∀ n : Node, n.inherited = true → decide (n.nativeSelector? = some selector) = false :=
    fun n h => by simp [nativeSelector?, h]
  have hmarker : ∀ n : Node, n.isMarker = true → decide (n.nativeSelector? = some selector) = false :=
    fun n h => by simp [nativeSelector?_of_marker h]
  rw [absorbed, scope_eq_flatMap, filter_leaves hinherited hmarker fun _ _ => rfl, List.flatMap_map]

/-- A native node of the scope of `p` is a child of `p` with its own scope merged. -/
theorem exists_child_of_native {p n : Node} (hn : n ∈ p.scope) (hflag : n.inherited = false) :
    ∃ c ∈ p.children, c.isMarker = false ∧ n = { c with children := c.merged } := by
  obtain ⟨c, hc, hleft⟩ := mem_scope.1 hn
  cases hmarker : c.isMarker with
  | true =>
    rw [inherited_of_mem_left hmarker hleft] at hflag
    cases hflag
  | false =>
    rw [left_of_not_marker hmarker, List.mem_singleton] at hleft
    exact ⟨c, hc, hmarker, hleft⟩

/-- The nodes effective under `p` that a node `z`, left in the scope of `p` by a run, has its children from. They
    are of one kind, and there is more than one of them only if that is a rule with a selector. -/
structure Origin (p z : Node) (sources : List Node) : Prop where
  effective : ∀ y ∈ sources, Effective p y
  kind : ∀ y ∈ sources, y.kind = z.kind
  children : z.children = sources.flatMap merged
  isMarker : z.isMarker = false
  alone : (∃ y, sources = [y]) ∨ ∃ selector, z.kind = .rule (some selector)

/-- A child that is no marker has its children from itself. -/
theorem Origin.of_child {p c : Node} (hc : c ∈ p.children) (hmarker : c.isMarker = false) :
    Origin p { c with children := c.merged } [c] where
  effective y hy := .child (List.mem_singleton.1 hy ▸ hc)
  kind y hy := by rw [List.mem_singleton.1 hy]
  children := by simp
  isMarker := hmarker
  alone := .inl ⟨c, rfl⟩

/-- What a marker among the children hands on has its children from the same nodes as in the scope of the marker. -/
theorem Origin.of_child_marker {p m z : Node} {sources : List Node} (hm : m ∈ p.children)
    (hmarker : m.isMarker = true) (h : Origin m z sources) : Origin p { z with inherited := true } sources where
  effective y hy := (h.effective y hy).of_child_marker hm hmarker
  kind := h.kind
  children := h.children
  isMarker := h.isMarker
  alone := h.alone

/-- What takes over children in the scope of `p` has them from the native rules there. -/
theorem Origin.adopt {p z : Node} {sources : List Node} {selector : String} (h : Origin p z sources)
    (hz : z.kind = .rule (some selector)) :
    Origin p (z.adopt (absorbed p.scope selector))
      (sources ++ p.children.filter fun c => c.nativeSelector? = some selector) where
  effective y hy := (List.mem_append.1 hy).elim (h.effective y) fun hy => .child (List.mem_filter.1 hy).1
  kind y hy := by
    rw [adopt_kind]
    refine (List.mem_append.1 hy).elim (h.kind y) fun hy => ?_
    have hnative : y.nativeSelector? = some selector := by simpa using (List.mem_filter.1 hy).2
    rw [hz, (nativeSelector?_eq_some_iff.1 hnative).2]
  children := by
    show z.children ++ absorbed p.scope selector = _
    rw [List.flatMap_append, absorbed_scope, h.children]
  isMarker := h.isMarker
  alone := .inr ⟨selector, hz⟩

/-- **Every node that a run leaves in a scope has an origin.** -/
theorem exists_origin (p : Node) : ∀ z ∈ p.merged, ∃ sources, Origin p z sources := by
  induction p using childInduction with
  | step p ih =>
    have hscope : ∀ m ∈ p.scope, ∃ sources, Origin p m sources := by
      intro m hm
      obtain ⟨c, hc, hleft⟩ := mem_scope.1 hm
      cases hmarker : c.isMarker with
      | true =>
        rw [left_of_marker hmarker] at hleft
        obtain ⟨inner, hinner, rfl⟩ := List.mem_map.1 hleft
        obtain ⟨sources, horigin⟩ := ih c hc inner hinner
        exact ⟨sources, horigin.of_child_marker hc hmarker⟩
      | false =>
        rw [left_of_not_marker hmarker, List.mem_singleton] at hleft
        exact ⟨[c], hleft ▸ .of_child hc hmarker⟩
    intro z hz
    obtain ⟨m, hm, -, hcases⟩ := mem_mergeNodes_cases hz
    obtain ⟨sources, horigin⟩ := hscope m hm
    rcases hcases with rfl | ⟨selector, hinherited, rfl⟩
    · exact ⟨sources, horigin⟩
    · exact ⟨_, horigin.adopt (inheritedSelector?_eq_some_iff.1 hinherited).2⟩

/-! ## At any depth -/

theorem Effective.mem_preorder {root p x : Node} (hp : p ∈ root.preorder) (hx : Effective p x) :
    x ∈ root.preorder := by
  induction hx with
  | child hx => exact mem_preorder_of_mem_children hp hx
  | behind _ _ hx ih => exact mem_preorder_of_mem_children ih hx

/-- **Below the root, every node of a resolved tree was left in the scope of a node of the tree.** -/
theorem exists_mem_merged {root p z w : Node} (hp : p ∈ root.preorder) (hz : z ∈ p.merged) (hw : w ∈ z.preorder) :
    ∃ q ∈ root.preorder, w ∈ q.merged := by
  induction z using childInduction generalizing p with
  | step z ih =>
    rcases mem_preorder_iff.1 hw with rfl | ⟨child, hchild, hw⟩
    · exact ⟨p, hp, hz⟩
    · obtain ⟨sources, horigin⟩ := exists_origin p z hz
      have hmem := hchild
      rw [horigin.children, List.mem_flatMap] at hmem
      obtain ⟨y, hy, hmem⟩ := hmem
      exact ih child hchild ((horigin.effective y hy).mem_preorder hp) hmem hw

/-- The same of all nodes of a resolved tree but the root. -/
theorem mem_preorder_resolved {root w : Node} (hw : w ∈ ({ root with children := root.merged } : Node).preorder) :
    w = { root with children := root.merged } ∨ ∃ q ∈ root.preorder, w ∈ q.merged := by
  refine (mem_preorder_iff.1 hw).imp_right ?_
  rintro ⟨z, hz, hw⟩
  exact exists_mem_merged (mem_preorder_self root) hz hw

end Node

end StyleTree
