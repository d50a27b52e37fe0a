import StyleTree.Proofs.Inherit.FixedPoints

/-!
# `Proofs.Inherit.Rerun` — resolving a resolved tree

A scope is merged once, with what its children leave there. Later its node may take over the children of another
rule, or give its own away, and then two merged lists stand in one, unmerged: an inherited rule of the one beside a
native rule of the other. A second run merges them, or fails if one of them was never resolved.

Which trees are spared that shows before the run, in the rules of one selector that come together in a scope
(`Conflicting`): a clash in a resolved tree comes from two such rules, `exists_conflicting_of_clashes`. So
`resolve_resolved` says when a second run changes nothing, and `resolve_twice_clashingPage` is about a page, none of it
flagged, that a second run changes. Running on comes to an end, since a run that changes a tree leaves fewer nodes
(`resolve_eq_or_lt`).
-/

namespace StyleTree

namespace Node

/-! ## Two lists in one -/

/-- What a run leaves under `x` and under `y` does not go into one list: a rule has the flag among the children of
    `x`, or is reached from `x` through a marker, and under `y` there is an unresolved rule, or among the children of
    `y` an unflagged rule of the same selector that is not consumed. -/
def Conflicting (x y : Node) : Prop :=
  ∃ q, ((q ∈ x.children ∧ q.inherited = true) ∨ Spliced x q) ∧ q.isRule = true ∧
    ((∃ u, Effective y u ∧ u.kind = .rule none) ∨
      ∃ r ∈ y.children, r.inherited = false ∧ r.kind = q.kind ∧ ¬Consumed y r)

/-- Two nodes that conflict bring merged lists together that clash. -/
theorem clash_of_conflicting {x y : Node} (h : Conflicting x y) : Clash x.merged y.merged := by
  obtain ⟨source, hsource, hrule, hclash⟩ := h
  obtain ⟨selector, hkind⟩ := isRule_iff.1 hrule
  -- An inherited rule is never consumed, so it is left in the scope of `x`.
  obtain ⟨m, hm, hflag, hmkind⟩ := (exists_inherited_rule_scope x).2 ⟨source, hsource, hkind⟩
  obtain ⟨more, hmore⟩ := exists_adopt_mem_mergeNodes hm (consumedIn_of_inherited hflag x.scope)
  have hinherited : (m.adopt more).isInheritedRule = true := by
    rw [isInheritedRule, Bool.and_eq_true]
    exact ⟨hflag, isRule_iff.2 ⟨selector, hmkind⟩⟩
  refine ⟨m.adopt more, hmore, hinherited, ?_⟩
  rcases hclash with ⟨u, hu, hunresolved⟩ | ⟨r, hr, hnative, hsame, hstays⟩
  · obtain ⟨n, hn, hnkind⟩ := exists_rule_mergeNodes.2 ((exists_rule_scope y).2 ⟨u, hu, hunresolved⟩)
    exact ⟨n, hn, .inl hnkind⟩
  · have hrkind : r.kind = .rule selector := hsame.trans hkind
    have hscope := mem_scope_of_child hr (isMarker_of_rule hrkind)
    rw [consumed_iff_consumedIn, Bool.not_eq_true] at hstays
    obtain ⟨more', hmore'⟩ := exists_adopt_mem_mergeNodes hscope hstays
    exact ⟨_, hmore', .inr ⟨hnative, hrkind.trans hmkind.symm⟩⟩

/-- A clash between two merged lists shows in the blocks of their nodes, before the run. -/
theorem conflicting_of_clash {x y : Node} (h : Clash x.merged y.merged) : Conflicting x y := by
  obtain ⟨q, hq, hinherited, r, hr, hclash⟩ := h
  simp only [isInheritedRule, Bool.and_eq_true] at hinherited
  obtain ⟨hflag, hrule⟩ := hinherited
  obtain ⟨selector, hkind⟩ := isRule_iff.1 hrule
  obtain ⟨m, hm, -, more, rfl⟩ := mem_mergeNodes hq
  obtain ⟨source, hsource, hsourceKind⟩ := (exists_inherited_rule_scope x).1 ⟨m, hm, hflag, hkind⟩
  refine ⟨source, hsource, isRule_iff.2 ⟨selector, hsourceKind⟩, ?_⟩
  obtain ⟨n, hn, hstays, more', rfl⟩ := mem_mergeNodes hr
  rcases hclash with hunresolved | ⟨hnative, hsame⟩
  · exact .inl ((exists_rule_scope y).1 ⟨n, hn, hunresolved⟩)
  · obtain ⟨c, hc, -, rfl⟩ := exists_child_of_native hn hnative
    refine .inr ⟨c, hc, hnative, hsame.trans (hkind.trans hsourceKind.symm), ?_⟩
    rw [consumed_iff_consumedIn, Bool.not_eq_true]
    exact hstays

/-- Whether two nodes conflict is seen on what a run leaves under them. -/
theorem conflicting_iff_clash {x y : Node} : Conflicting x y ↔ Clash x.merged y.merged :=
  ⟨clash_of_conflicting, conflicting_of_clash⟩

instance (x y : Node) : Decidable (Conflicting x y) :=
  decidable_of_iff _ conflicting_iff_clash.symm

/-- What a run leaves under one node goes together. -/
theorem not_conflicting_self {x : Node} (h : lacksSelector x.scope = false) : ¬Conflicting x x := by
  have hblocked : ¬x.Blocked := fun hblocked => by
    rw [lacksSelector_scope_iff.2 hblocked] at h
    cases h
  rintro ⟨q, hsource, hrule, hclash⟩
  have heffective : Effective x q := effective_iff.2 (hsource.imp_left And.left)
  have hfirst : ∀ u, Effective x u → u.kind ≠ .rule none := fun u hu hunresolved =>
    hblocked ⟨⟨u, hu, hunresolved⟩, q, heffective, hrule, hsource.imp_left And.right⟩
  rcases hclash with ⟨u, hu, hunresolved⟩ | ⟨r, hr, hnative, hsame, hstays⟩
  · exact hfirst u hu hunresolved
  · obtain ⟨_ | selector, hkind⟩ := isRule_iff.1 hrule
    · exact hfirst q heffective hkind
    · exact hstays ⟨hnative, selector, selector?_eq_some_iff.2 (hsame.trans hkind), q, heffective,
        selector?_eq_some_iff.2 hkind, hsource⟩

/-- Two rules of one selector come together in the scope of `p`, and what is left under them does not go into one
    list. -/
def Unsettled (p : Node) : Prop :=
  ∃ x y selector, Effective p x ∧ Effective p y ∧ x.selector? = some selector ∧ y.selector? = some selector ∧
    Conflicting x y

/-- What can end up in the scope of a node, markers apart, is its block. -/
theorem effective_iff_mem_block {p x : Node} (h : x.isMarker = false) : Effective p x ↔ ∃ q, (q, x) ∈ p.block := by
  constructor
  · intro hx
    cases hx with
    | child hx => exact ⟨p, mem_block_iff.2 ⟨hx, h, .inl rfl⟩⟩
    | @behind m _ hm hmarker hx => exact ⟨m, mem_block_iff.2 ⟨hx, h, .inr ⟨hm, hmarker⟩⟩⟩
  · rintro ⟨q, hmem⟩
    obtain ⟨hx, -, rfl | ⟨hq, hmarker⟩⟩ := mem_block_iff.1 hmem
    · exact .child hx
    · exact .behind hq hmarker hx

theorem isMarker_of_selector? {n : Node} {selector : String} (h : n.selector? = some selector) :
    n.isMarker = false :=
  isMarker_of_rule (selector?_eq_some_iff.1 h)

/-- Whether a node is unsettled can be read off its block. -/
theorem unsettled_iff {p : Node} :
    p.Unsettled ↔ ∃ x ∈ p.block, ∃ y ∈ p.block, x.2.selector?.isSome = true ∧ y.2.selector? = x.2.selector? ∧
      Conflicting x.2 y.2 := by
  constructor
  · rintro ⟨x, y, selector, hx, hy, hxs, hys, hconflict⟩
    obtain ⟨q, hxmem⟩ := (effective_iff_mem_block (isMarker_of_selector? hxs)).1 hx
    obtain ⟨r, hymem⟩ := (effective_iff_mem_block (isMarker_of_selector? hys)).1 hy
    exact ⟨(q, x), hxmem, (r, y), hymem, by simp [hxs], hys.trans hxs.symm, hconflict⟩
  · rintro ⟨⟨q, x⟩, hxmem, ⟨r, y⟩, hymem, hsome, hsame, hconflict⟩
    obtain ⟨selector, hxs⟩ := Option.isSome_iff_exists.1 hsome
    have hys : y.selector? = some selector := hsame.trans hxs
    exact ⟨x, y, selector, (effective_iff_mem_block (isMarker_of_selector? hxs)).2 ⟨q, hxmem⟩,
      (effective_iff_mem_block (isMarker_of_selector? hys)).2 ⟨r, hymem⟩, hxs, hys, hconflict⟩

instance (p : Node) : Decidable p.Unsettled :=
  decidable_of_iff _ unsettled_iff.symm

/-- **A clash in a resolved tree comes from two rules of one selector.** -/
theorem exists_conflicting_of_clashes {root w : Node} (hsuffice : root.SelectorsSuffice)
    (hw : w ∈ ({ root with children := root.merged } : Node).preorder) (hclash : w.Clashes) :
    ∃ p ∈ root.preorder, p.Unsettled := by
  obtain ⟨q, hq, hinherited, r, hr, hqr⟩ := hclash
  rcases mem_preorder_resolved hw with rfl | ⟨p, hp, hw⟩
  · -- The children of the root are one list.
    exact absurd (conflicting_of_clash ⟨q, hq, hinherited, r, hr, hqr⟩)
      (not_conflicting_self (hsuffice root (mem_preorder_self root)))
  · obtain ⟨sources, horigin⟩ := exists_origin p w hw
    rw [horigin.children, List.mem_flatMap] at hq hr
    obtain ⟨x, hx, hq⟩ := hq
    obtain ⟨y, hy, hr⟩ := hr
    have hconflict := conflicting_of_clash ⟨q, hq, hinherited, r, hr, hqr⟩
    rcases horigin.alone with ⟨z, rfl⟩ | ⟨selector, hkind⟩
    · rw [List.mem_singleton.1 hx, List.mem_singleton.1 hy] at hconflict
      have hz := (horigin.effective z (List.mem_singleton_self z)).mem_preorder hp
      exact absurd hconflict (not_conflicting_self (hsuffice z hz))
    · exact ⟨p, hp, x, y, selector, horigin.effective x hx, horigin.effective y hy,
        selector?_eq_some_iff.2 ((horigin.kind x hx).trans hkind),
        selector?_eq_some_iff.2 ((horigin.kind y hy).trans hkind), hconflict⟩

/-! ## The outcome -/

/-- **When a second run changes nothing.** Exactly if no list of children in the resolved tree clashes, and always
    if no two rules of one selector that come together in a scope conflict. -/
theorem resolve_resolved {root root' : Node} {s s' : Stats} (h : root.resolve.run.run s = (.ok root', s')) :
    (∀ t, root'.resolve.run.run t = (.ok root', t + { scopes := root'.countNodes }) ↔
        ∀ p ∈ root'.preorder, ¬p.Clashes) ∧
      ((∀ p ∈ root.preorder, ¬p.Unsettled) →
        ∀ t, root'.resolve.run.run t = (.ok root', t + { scopes := root'.countNodes })) := by
  obtain ⟨hroot, hsuffice, rfl, -⟩ := resolve_ok h
  have hfree := countMarkers_resolved hroot
  refine ⟨fun t => ⟨fun hrun => not_clashes_of_resolve_self hfree hrun, fun hclash =>
    resolve_run_of_no_clash hfree hclash t⟩, ?_⟩
  intro hsettled t
  refine resolve_run_of_no_clash hfree (fun w hw hclash => ?_) t
  obtain ⟨p, hp, hunsettled⟩ := exists_conflicting_of_clashes hsuffice hw hclash
  exact hsettled p hp hunsettled

/-- A page that inherits a rule and declares it, with other rules inside each. -/
def settledPage : Node :=
  { root "page.css" with
    children := [
      { marker "base.css" with children := [{ rule ".a" with children := [rule ".b"] }] },
      { rule ".a" with children := [rule ".b", { marker "deep.css" with children := [rule ".c"] }] }] }

theorem resolve_resolved_settledPage :
    ∃ page s, settledPage.resolve.run.run {} = (.ok page, s) ∧ s.rulesMerged = 1 ∧
      (∀ p ∈ settledPage.preorder, ¬p.Unsettled) ∧
      (∀ t, page.resolve.run.run t = (.ok page, t + { scopes := page.countNodes }) ↔
          ∀ p ∈ page.preorder, ¬p.Clashes) ∧
        ((∀ p ∈ settledPage.preorder, ¬p.Unsettled) →
          ∀ t, page.resolve.run.run t = (.ok page, t + { scopes := page.countNodes })) := by
  have hrun : settledPage.resolve.run.run {} =
      (.ok { root "page.css" with
        children := [
          { rule ".a" with
            inherited := true
            children := [rule ".b", rule ".b", { rule ".c" with inherited := true }] }] },
        { scopes := 6, markersSpliced := 2, nodesSpliced := 2, rulesMerged := 1 }) := by
    rfl
  exact ⟨_, _, hrun, rfl, by decide, resolve_resolved hrun⟩

/-- A page that inherits a rule with a nested rule, and declares the same rule, whose nested rule it inherits. -/
def clashingPage : Node :=
  { root "page.css" with
    children := [
      { marker "base.css" with children := [{ rule ".a" with children := [rule ".b"] }] },
      { rule ".a" with children := [{ marker "deep.css" with children := [rule ".b"] }] }] }

theorem resolve_twice_clashingPage :
    (∀ p ∈ clashingPage.preorder, p.inherited = false) ∧
      ∃ once twice s t, clashingPage.resolve.run.run {} = (.ok once, s) ∧
        once.resolve.run.run s = (.ok twice, t) ∧ twice ≠ once ∧ t.rulesMerged = s.rulesMerged + 1 ∧
        ∃ p ∈ once.preorder, p.Clashes := by
  refine ⟨by decide, _, _, _, _, rfl, rfl, ?_, rfl, ?_⟩
  · decide
  · decide

/-! ## Running on -/

/-- **Every successful run returns the tree as it was or a smaller one.** So however often a tree is run again, at some
    point a run fails or nothing changes any more. -/
theorem resolve_eq_or_lt {root root' : Node} {s s' : Stats} (h : root.resolve.run.run s = (.ok root', s')) :
    root' = root ∨ root'.countNodes < root.countNodes := by
  obtain ⟨hroot, -, rfl, -⟩ := resolve_ok h
  have hnodes := countNodes_resolved hroot
  by_cases hsmaller : ({ root with children := root.merged } : Node).countNodes < root.countNodes
  · exact .inr hsmaller
  · -- No marker was spliced and no rule consumed, so no scope has changed.
    have hfree : root.countMarkers = 0 := by omega
    have hconsumed : root.consumedRules = [] := List.length_eq_zero_iff.1 (by omega)
    refine .inl (withChildren_eq_self (merged_eq_children root fun p hp c hc => ?_))
    refine ⟨isMarker_child_of_markerFree hfree hp c hc, fun hgone => ?_⟩
    have hmem := mem_consumedRules hp hc hgone
    rw [hconsumed] at hmem
    cases hmem

end Node

end StyleTree
