import StyleTree.Proofs.Inherit.Pass

/-!
# `Proofs.Inherit.Effective` — which scopes a run fails at

The nodes that can end up in the scope of a node are its children and, through markers, the children of those,
however deep the markers nest (`Effective`, and `Spliced` for those that come through a marker). A merge inside a marker
may take some of them away, but never the last rule of a selector, and never an unresolved one. So what a scope has to
offer can be read off the tree before the run, and with it whether the run succeeds: `resolve_error_iff`.
-/

namespace StyleTree

namespace Node

/-! ## Nodes under a node -/

/-- A node is effective under `p` if it is a child of `p`, or a child of a marker that is itself effective
    under `p`. -/
inductive Effective (p : Node) : Node → Prop where
  | child {x : Node} : x ∈ p.children → Effective p x
  | behind {m x : Node} : Effective p m → m.isMarker = true → x ∈ m.children → Effective p x

/-- A node is reached from `p` through at least one marker. -/
def Spliced (p x : Node) : Prop :=
  ∃ m, Effective p m ∧ m.isMarker = true ∧ x ∈ m.children

theorem Spliced.effective {p x : Node} : Spliced p x → Effective p x
  | ⟨_, hm, hmarker, hx⟩ => .behind hm hmarker hx

/-- What is effective under a marker among the children is so under the node itself. -/
theorem Effective.of_child_marker {p m x : Node} (hm : m ∈ p.children) (hmarker : m.isMarker = true)
    (hx : Effective m x) : Effective p x := by
  induction hx with
  | child hx => exact .behind (.child hm) hmarker hx
  | behind _ hmarker' hx ih => exact .behind ih hmarker' hx

/-- Read from the top, the first marker on the way is a child. -/
theorem spliced_iff {p x : Node} :
    Spliced p x ↔ ∃ m ∈ p.children, m.isMarker = true ∧ Effective m x := by
  constructor
  · rintro ⟨m, hm, hmarker, hx⟩
    induction hm generalizing x with
    | @child m hm => exact ⟨m, hm, hmarker, .child hx⟩
    | behind _ hmarker' hm ih =>
      obtain ⟨top, htop, htopMarker, hbelow⟩ := ih hmarker' hm
      exact ⟨top, htop, htopMarker, .behind hbelow hmarker hx⟩
  · rintro ⟨m, hm, hmarker, hx⟩
    cases hx with
    | child hx => exact ⟨m, .child hm, hmarker, hx⟩
    | behind hinner hmarker' hx => exact ⟨_, hinner.of_child_marker hm hmarker, hmarker', hx⟩

theorem effective_iff {p x : Node} : Effective p x ↔ x ∈ p.children ∨ Spliced p x := by
  constructor
  · intro h
    cases h with
    | child hx => exact .inl hx
    | behind hm hmarker hx => exact .inr ⟨_, hm, hmarker, hx⟩
  · rintro (hx | hx)
    · exact .child hx
    · exact hx.effective

/-! ## What a scope offers -/

theorem mem_scope {p n : Node} : n ∈ p.scope ↔ ∃ c ∈ p.children, n ∈ c.left c.merged := by
  simp only [scope_eq_flatMap, List.mem_flatMap, leaves_eq]

theorem isMarker_of_rule {n : Node} {selector : Option String} (h : n.kind = .rule selector) :
    n.isMarker = false := by
  simp [isMarker, h]

theorem nativeSelector?_of_marker {n : Node} (h : n.isMarker = true) : n.nativeSelector? = none := by
  rw [Option.eq_none_iff_forall_ne_some]
  intro selector hselector
  rw [isMarker_of_rule (nativeSelector?_eq_some_iff.1 hselector).2] at h
  cases h

/-- A child that is no marker is in the scope, with its own scope merged. -/
theorem mem_scope_of_child {p c : Node} (hc : c ∈ p.children) (h : c.isMarker = false) :
    ({ c with children := c.merged } : Node) ∈ p.scope := by
  refine mem_scope.2 ⟨c, hc, ?_⟩
  rw [left_of_not_marker h]
  exact List.mem_singleton_self _

/-- The rules in the scope of a node have the selectors of the rules effective under it. -/
theorem exists_rule_scope {selector : Option String} (p : Node) :
    (∃ n ∈ p.scope, n.kind = .rule selector) ↔ ∃ x, Effective p x ∧ x.kind = .rule selector := by
  induction p using childInduction with
  | step p ih =>
    constructor
    · rintro ⟨n, hn, hkind⟩
      obtain ⟨c, hc, hleft⟩ := mem_scope.1 hn
      cases hmarker : c.isMarker with
      | false =>
        rw [left_of_not_marker hmarker, List.mem_singleton] at hleft
        exact ⟨c, .child hc, by rw [← hkind, hleft]⟩
      | true =>
        -- What a marker hands on was in its own scope before the merge there.
        rw [left_of_marker hmarker, List.mem_map] at hleft
        obtain ⟨m, hm, rfl⟩ := hleft
        obtain ⟨x, hx, hxkind⟩ := (ih c hc).1 (exists_rule_mergeNodes.1 ⟨m, hm, hkind⟩)
        exact ⟨x, hx.of_child_marker hc hmarker, hxkind⟩
    · rintro ⟨x, hx, hkind⟩
      rcases effective_iff.1 hx with hx | hx
      · exact ⟨_, mem_scope_of_child hx (isMarker_of_rule hkind), hkind⟩
      · -- The merge inside the marker keeps a rule of the selector, if not this one.
        obtain ⟨m, hm, hmarker, hx⟩ := spliced_iff.1 hx
        obtain ⟨n, hn, hnkind⟩ := exists_rule_mergeNodes.2 ((ih m hm).2 ⟨x, hx, hkind⟩)
        refine ⟨{ n with inherited := true }, mem_scope.2 ⟨m, hm, ?_⟩, hnkind⟩
        rw [left_of_marker hmarker]
        exact List.mem_map_of_mem hn

/-- The inherited rules in the scope of a node have the selectors of the rules that are flagged in the tree or
    reached through a marker. -/
theorem exists_inherited_rule_scope {selector : Option String} (p : Node) :
    (∃ n ∈ p.scope, n.inherited = true ∧ n.kind = .rule selector) ↔
      ∃ x, ((x ∈ p.children ∧ x.inherited = true) ∨ Spliced p x) ∧ x.kind = .rule selector := by
  constructor
  · rintro ⟨n, hn, hflag, hkind⟩
    obtain ⟨c, hc, hleft⟩ := mem_scope.1 hn
    cases hmarker : c.isMarker with
    | false =>
      rw [left_of_not_marker hmarker, List.mem_singleton] at hleft
      subst hleft
      exact ⟨c, .inl ⟨hc, hflag⟩, hkind⟩
    | true =>
      rw [left_of_marker hmarker, List.mem_map] at hleft
      obtain ⟨m, hm, rfl⟩ := hleft
      obtain ⟨x, hx, hxkind⟩ := (exists_rule_scope c).1 (exists_rule_mergeNodes.1 ⟨m, hm, hkind⟩)
      exact ⟨x, .inr (spliced_iff.2 ⟨c, hc, hmarker, hx⟩), hxkind⟩
  · rintro ⟨x, ⟨hx, hflag⟩ | hx, hkind⟩
    · exact ⟨_, mem_scope_of_child hx (isMarker_of_rule hkind), hflag, hkind⟩
    · obtain ⟨m, hm, hmarker, hx⟩ := spliced_iff.1 hx
      obtain ⟨n, hn, hnkind⟩ := exists_rule_mergeNodes.2 ((exists_rule_scope m).2 ⟨x, hx, hkind⟩)
      refine ⟨{ n with inherited := true }, mem_scope.2 ⟨m, hm, ?_⟩, rfl, hnkind⟩
      rw [left_of_marker hmarker]
      exact List.mem_map_of_mem hn

/-! ## Success -/

/-- A node whose scope cannot be merged, as far as the tree shows it: under it an unresolved rule is effective
    next to a rule that is flagged as inherited or reached through a marker. Both may be the same rule. -/
def Blocked (p : Node) : Prop :=
  (∃ u, Effective p u ∧ u.kind = .rule none) ∧
    ∃ q, Effective p q ∧ q.isRule = true ∧ (q.inherited = true ∨ Spliced p q)

/-- The scope that a run finds lacks a selector exactly if the tree shows it. -/
theorem lacksSelector_scope_iff {p : Node} : lacksSelector p.scope = true ↔ p.Blocked := by
  have hinherited : p.scope.any isInheritedRule = true ↔
      ∃ q, Effective p q ∧ q.isRule = true ∧ (q.inherited = true ∨ Spliced p q) := by
    simp only [List.any_eq_true, isInheritedRule, Bool.and_eq_true, isRule_iff]
    constructor
    · rintro ⟨n, hn, hflag, selector, hkind⟩
      obtain ⟨x, hx, hxkind⟩ := (exists_inherited_rule_scope p).1 ⟨n, hn, hflag, hkind⟩
      rcases hx with ⟨hchild, hflag⟩ | hspliced
      · exact ⟨x, .child hchild, ⟨selector, hxkind⟩, .inl hflag⟩
      · exact ⟨x, hspliced.effective, ⟨selector, hxkind⟩, .inr hspliced⟩
    · rintro ⟨q, hq, ⟨selector, hkind⟩, hinh⟩
      have hsource : (q ∈ p.children ∧ q.inherited = true) ∨ Spliced p q := by
        rcases effective_iff.1 hq with hchild | hspliced
        · exact hinh.imp_left fun hflag => ⟨hchild, hflag⟩
        · exact .inr hspliced
      obtain ⟨n, hn, hflag, hnkind⟩ := (exists_inherited_rule_scope p).2 ⟨q, hsource, hkind⟩
      exact ⟨n, hn, hflag, selector, hnkind⟩
  have hunresolved : p.scope.any isUnresolvedRule = true ↔ ∃ u, Effective p u ∧ u.kind = .rule none := by
    rw [← exists_rule_scope]
    simp [isUnresolvedRule]
  rw [lacksSelector, Bool.and_eq_true, hinherited, hunresolved, and_comm]
  rfl

theorem selectorsSuffice_iff_not_blocked {root : Node} :
    root.SelectorsSuffice ↔ ∀ p ∈ root.preorder, ¬p.Blocked := by
  simp only [SelectorsSuffice, ← lacksSelector_scope_iff, Bool.not_eq_true]

/-- **Which trees are resolved.** A run fails if the root is a marker or some node of the tree is blocked; every
    other tree is resolved, however many unresolved rules it has. -/
theorem resolve_error_iff (root : Node) (s : Stats) :
    ((∃ failure s', root.resolve.run.run s = (.error failure, s')) ↔
        root.isMarker = true ∨ ∃ p ∈ root.preorder, p.Blocked) ∧
      ((∃ root' s', root.resolve.run.run s = (.ok root', s')) ↔
        ¬(root.isMarker = true ∨ ∃ p ∈ root.preorder, p.Blocked)) := by
  have hgood : ¬(root.isMarker = true ∨ ∃ p ∈ root.preorder, p.Blocked) ↔
      root.isMarker = false ∧ root.SelectorsSuffice := by
    simp only [selectorsSuffice_iff_not_blocked, not_or, not_exists, not_and, Bool.not_eq_true]
  by_cases h : root.isMarker = false ∧ root.SelectorsSuffice
  · have hrun := resolve_run h.1 h.2 s
    have hnot := hgood.2 h
    constructor
    · constructor
      · rintro ⟨failure, s', herror⟩
        rw [hrun] at herror
        cases herror
      · intro hbad
        exact absurd hbad hnot
    · constructor
      · intro _
        exact hnot
      · intro _
        exact ⟨_, _, hrun⟩
  · obtain ⟨failure, s', hrun⟩ := resolve_fails h s
    have hbad := not_not.1 (mt hgood.1 h)
    constructor
    · constructor
      · intro _
        exact hbad
      · intro _
        exact ⟨failure, s', hrun⟩
    · constructor
      · rintro ⟨root', s'', hok⟩
        rw [hrun] at hok
        cases hok
      · intro hnot
        exact absurd hbad hnot

end Node

end StyleTree
