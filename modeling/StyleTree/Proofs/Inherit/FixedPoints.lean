import StyleTree.Proofs.Inherit.Accounting

/-!
# `Proofs.Inherit.FixedPoints` — the trees that a run leaves alone

In a tree without markers nothing moves from one scope to another, so a run can only merge what already stands side
by side. It leaves the tree alone if no rule that is flagged as inherited has anything to absorb, nor an unresolved
rule beside it (`resolve_run_of_no_clash`); and a rule that is absorbed somewhere is missing from the resolved tree
whatever happens elsewhere (`not_clashes_of_resolve_self`). Together these are the fixed points among the trees without
markers, `resolve_eq_self_iff`.
-/

namespace StyleTree

namespace Node

/-! ## Side by side -/

/-- Among the nodes `xs` is a rule that is flagged as inherited, and among the nodes `ys` a rule that cannot stand
    beside it for long: one that was never resolved, or one of its selector without the flag. -/
def Clash (xs ys : List Node) : Prop :=
  ∃ q ∈ xs, q.isInheritedRule = true ∧ ∃ r ∈ ys, r.kind = .rule none ∨ (r.inherited = false ∧ r.kind = q.kind)

instance (xs ys : List Node) : Decidable (Clash xs ys) :=
  inferInstanceAs (Decidable (∃ q ∈ xs, q.isInheritedRule = true ∧
    ∃ r ∈ ys, r.kind = .rule none ∨ (r.inherited = false ∧ r.kind = q.kind)))

/-- The children of a node hold a rule that is flagged as inherited, and together with it a rule that was never
    resolved, possibly that same one, or a rule of its selector without the flag. -/
def Clashes (p : Node) : Prop :=
  Clash p.children p.children

instance (p : Node) : Decidable p.Clashes :=
  inferInstanceAs (Decidable (Clash p.children p.children))

section NoMarker

variable {p x : Node} (hfree : ∀ c ∈ p.children, c.isMarker = false)

include hfree

theorem not_spliced_of_no_marker : ¬Spliced p x := by
  intro h
  obtain ⟨m, hm, hmarker, -⟩ := spliced_iff.1 h
  rw [hfree m hm] at hmarker
  cases hmarker

/-- Without markers, what can end up in the scope of a node are its children. -/
theorem effective_iff_of_no_marker : Effective p x ↔ x ∈ p.children := by
  rw [effective_iff, or_iff_left (not_spliced_of_no_marker hfree)]

/-- Without markers around, a scope is blocked or loses a rule exactly if its nodes clash. -/
theorem clashes_iff : p.Clashes ↔ p.Blocked ∨ ∃ r ∈ p.children, Consumed p r := by
  have hspliced : ∀ x, ¬Spliced p x := fun x => not_spliced_of_no_marker hfree
  simp only [Clashes, Clash, Blocked, Consumed, effective_iff_of_no_marker hfree, hspliced, or_false, selector?_eq_some_iff,
    isInheritedRule, Bool.and_eq_true]
  constructor
  · rintro ⟨q, hq, ⟨hflag, hrule⟩, r, hr, hunresolved | ⟨hnative, hsame⟩⟩
    · exact .inl ⟨⟨r, hr, hunresolved⟩, q, hq, hrule, hflag⟩
    · obtain ⟨_ | selector, hkind⟩ := isRule_iff.1 hrule
      · exact .inl ⟨⟨q, hq, hkind⟩, q, hq, hrule, hflag⟩
      · exact .inr ⟨r, hr, hnative, selector, hsame.trans hkind, q, hq, hkind, hq, hflag⟩
  · rintro (⟨⟨u, hu, hunresolved⟩, q, hq, hrule, hflag⟩ | ⟨r, hr, hnative, selector, hkind, q, hq, hsame, -, hflag⟩)
    · exact ⟨q, hq, ⟨hflag, hrule⟩, u, hu, .inl hunresolved⟩
    · exact ⟨q, hq, ⟨hflag, isRule_iff.2 ⟨_, hsame⟩⟩, r, hr, .inr ⟨hnative, hkind.trans hsame.symm⟩⟩

end NoMarker

/-! ## Both directions -/

theorem withChildren_eq_self {n : Node} {children : List Node} (h : children = n.children) :
    ({ n with children := children } : Node) = n := by
  cases n
  rw [h]

/-- Where nothing is consumed and no marker stands, the scopes are the children, before the merge and after it. -/
theorem merged_eq_children (n : Node)
    (h : ∀ p ∈ n.preorder, ∀ c ∈ p.children, c.isMarker = false ∧ ¬Consumed p c) : n.merged = n.children := by
  induction n using childInduction with
  | step n ih =>
    have hleaves : ∀ c ∈ n.children, c.leaves = [c] := by
      intro c hc
      have hsame := ih c hc fun p hp => h p (mem_preorder_of_child hc hp)
      rw [leaves_eq, left_of_not_marker (h n (mem_preorder_self n) c hc).1, withChildren_eq_self hsame]
    have hscope : n.scope = n.children := by
      rw [scope_eq_flatMap, List.flatMap_congr hleaves, List.flatMap_singleton']
    have hstay : ∀ c ∈ n.scope, consumedIn n.scope c = false := by
      intro c hc
      rw [Bool.eq_false_iff, ne_eq, ← consumed_iff_consumedIn]
      exact (h n (mem_preorder_self n) c (hscope ▸ hc)).2
    rw [merged, mergeNodes_eq_self hstay, hscope]

section MarkerFree

variable {root : Node} (hfree : root.countMarkers = 0)

include hfree

theorem isMarker_of_markerFree {p : Node} (hp : p ∈ root.preorder) : p.isMarker = false := by
  simpa using List.countP_eq_zero.1 hfree p hp

theorem isMarker_child_of_markerFree {p : Node} (hp : p ∈ root.preorder) :
    ∀ c ∈ p.children, c.isMarker = false :=
  fun _ hc => isMarker_of_markerFree hfree (mem_preorder_of_mem_children hp hc)

/-- What a run counts for a tree without markers. -/
theorem counted_of_markerFree :
    counted root.preorder = { scopes := root.countNodes, rulesMerged := root.consumedRules.length } := by
  have hscopes : (root.count fun n => !n.isMarker) = root.countNodes := by
    have hall := count_not_marker_add_countMarkers root
    omega
  have hnone : root.preorder.filter isMarker = [] :=
    List.filter_eq_nil_iff.2 fun p hp => by simp [isMarker_of_markerFree hfree hp]
  simp only [counted, hnone, consumedRules_eq_flatMap, List.length_flatMap]
  exact congrArg₂ (fun a b => Stats.mk a b _ _) hscopes hfree

/-- A tree without markers in which nothing clashes comes out as it went in. -/
theorem resolve_run_of_no_clash (hclash : ∀ p ∈ root.preorder, ¬p.Clashes) (s : Stats) :
    root.resolve.run.run s = (.ok root, s + { scopes := root.countNodes }) := by
  have hroot := isMarker_of_markerFree hfree (mem_preorder_self root)
  have hquiet : ∀ p ∈ root.preorder, ¬p.Blocked ∧ ∀ c ∈ p.children, ¬Consumed p c := by
    intro p hp
    have hp' := mt (clashes_iff (isMarker_child_of_markerFree hfree hp)).2 (hclash p hp)
    exact ⟨fun h => hp' (.inl h), fun c hc h => hp' (.inr ⟨c, hc, h⟩)⟩
  have hsuffice := selectorsSuffice_iff_not_blocked.2 fun p hp => (hquiet p hp).1
  have hsame : root.merged = root.children := merged_eq_children root fun p hp c hc =>
    ⟨isMarker_child_of_markerFree hfree hp c hc, (hquiet p hp).2 c hc⟩
  have hconsumed : root.consumedRules = [] := by
    rw [consumedRules_eq_flatMap, List.flatMap_eq_nil_iff]
    exact fun p hp => List.filter_eq_nil_iff.2 fun r hr => by simp [(hquiet p hp).2 r hr]
  have hrun := resolve_run hroot hsuffice s
  rw [resolve_counted hrun, counted_of_markerFree hfree, hconsumed, withChildren_eq_self hsame] at hrun
  exact hrun

/-- A run that returns a tree without markers as it was has merged nothing anywhere, and had no reason to fail. -/
theorem not_clashes_of_resolve_self {s s' : Stats} (h : root.resolve.run.run s = (.ok root, s')) :
    ∀ p ∈ root.preorder, ¬p.Clashes := by
  obtain ⟨-, hsuffice, hsame, -⟩ := resolve_ok h
  -- As many rules are left as there were, so none has disappeared in any scope.
  have hcount := count_isRule_resolved root
  rw [← hsame, Nat.add_eq_left] at hcount
  have hconsumed : root.consumedRules = [] := List.length_eq_zero_iff.1 hcount
  intro p hp hclash
  rcases (clashes_iff (isMarker_child_of_markerFree hfree hp)).1 hclash with hblocked | ⟨r, hr, hgone⟩
  · exact selectorsSuffice_iff_not_blocked.1 hsuffice p hp hblocked
  · have hmem := mem_consumedRules hp hr hgone
    rw [hconsumed] at hmem
    cases hmem

end MarkerFree

/-! ## The outcome -/

/-- **Which trees without markers a run leaves alone.** Those in which no list of children clashes; then a scope is
    counted for each node, and nothing else. -/
theorem resolve_eq_self_iff {root : Node} (hfree : root.countMarkers = 0) (s : Stats) :
    ((∃ s', root.resolve.run.run s = (.ok root, s')) ↔ ∀ p ∈ root.preorder, ¬p.Clashes) ∧
      ∀ s', root.resolve.run.run s = (.ok root, s') → s' = s + { scopes := root.countNodes } := by
  refine ⟨⟨?_, fun hclash => ⟨_, resolve_run_of_no_clash hfree hclash s⟩⟩, ?_⟩
  · rintro ⟨s', h⟩
    exact not_clashes_of_resolve_self hfree h
  · intro s' h
    rw [resolve_run_of_no_clash hfree (not_clashes_of_resolve_self hfree h) s] at h
    cases h
    rfl

/-- A page that was resolved before, with an unresolved rule where nothing is inherited. -/
def resolvedPage : Node :=
  { root "page.css" with
    children := [
      { rule ".a" with inherited := true, children := [unresolvedRule, rule ".b", rule ".b"] },
      rule ".b"] }

theorem resolve_eq_self_iff_resolvedPage :
    resolvedPage.countMarkers = 0 ∧ (∀ p ∈ resolvedPage.preorder, ¬p.Clashes) ∧
      ((∃ s', resolvedPage.resolve.run.run {} = (.ok resolvedPage, s')) ↔
          ∀ p ∈ resolvedPage.preorder, ¬p.Clashes) ∧
        ∀ s', resolvedPage.resolve.run.run {} = (.ok resolvedPage, s') →
          s' = ({} : Stats) + { scopes := resolvedPage.countNodes } :=
  ⟨rfl, by decide, resolve_eq_self_iff rfl {}⟩

end Node

end StyleTree
