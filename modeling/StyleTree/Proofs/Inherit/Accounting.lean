import StyleTree.Proofs.Inherit.Consumption
import StyleTree.Proofs.Inherit.Origins

/-!
# `Proofs.Inherit.Accounting` — what a run counts

Every node of a tree is settled once, and what is counted for it can be read off the tree before the run (`counted`): a
node that is no marker completes one scope, a marker hands on whatever in its block does not disappear inside it, and
either loses the children that are consumed. A node inside several markers is handed on by each of them, yet stands
in the resolved tree once.

What a marker hands on is named in terms of its `block`, the nodes that it gathers; `map_merged` is what makes that
right, since a merged scope is the block without the consumed rules, in its order. The result, that no marker survives
and each count is exact, is `resolve_counts`.
-/

namespace StyleTree

/-! ## Blocks -/

namespace Node

mutual

/-- The nodes effective under a node that are no markers, in their order, each with its parent. -/
def block : Node → List (Node × Node)
  | ⟨kind, children, inherited, location⟩ => blockOf ⟨kind, children, inherited, location⟩ children

/-- What the given children of a node add to its block. -/
def blockOf (parent : Node) : List Node → List (Node × Node)
  | [] => []
  | n :: ns => (if n.isMarker then n.block else [(parent, n)]) ++ blockOf parent ns

end

/-- The nodes that a marker hands on, each with its parent: those of its block that are not consumed where they
    stand, in the marker or in one of the markers they are reached through. -/
def handedOn (m : Node) : List (Node × Node) :=
  m.block.filter fun place => !decide (Consumed place.1 place.2)

theorem blockOf_eq_flatMap (parent : Node) (ns : List Node) :
    blockOf parent ns = ns.flatMap fun n => if n.isMarker then n.block else [(parent, n)] := by
  induction ns with
  | nil => rfl
  | cons n ns ih => rw [blockOf, ih, List.flatMap_cons]

/-- The block of a node is made of its children, with the block of each marker in place of the marker. -/
theorem block_eq (p : Node) :
    p.block = p.children.flatMap fun n => if n.isMarker then n.block else [(p, n)] := by
  rw [← blockOf_eq_flatMap]
  cases p; rfl

/-- A block holds the children of the node and of the markers effective under it, but for the markers. -/
theorem mem_block_iff {p q x : Node} :
    (q, x) ∈ p.block ↔ x ∈ q.children ∧ x.isMarker = false ∧ (q = p ∨ (Effective p q ∧ q.isMarker = true)) := by
  induction p using childInduction with
  | step p ih =>
    rw [block_eq, List.mem_flatMap]
    constructor
    · rintro ⟨c, hc, hmem⟩
      cases hmarker : c.isMarker with
      | true =>
        rw [hmarker, if_pos rfl] at hmem
        obtain ⟨hx, hxmarker, hq⟩ := (ih c hc).1 hmem
        refine ⟨hx, hxmarker, .inr ?_⟩
        rcases hq with rfl | ⟨hq, hqmarker⟩
        · exact ⟨.child hc, hmarker⟩
        · exact ⟨hq.of_child_marker hc hmarker, hqmarker⟩
      | false =>
        rw [hmarker, if_neg (by simp), List.mem_singleton, Prod.mk.injEq] at hmem
        obtain ⟨rfl, rfl⟩ := hmem
        exact ⟨hc, hmarker, .inl rfl⟩
    · rintro ⟨hx, hxmarker, rfl | ⟨hq, hqmarker⟩⟩
      · exact ⟨x, hx, by simp [hxmarker]⟩
      · -- The first marker on the way to `q` is a child of `p`.
        rcases effective_iff.1 hq with hq | hq
        · exact ⟨q, hq, by rw [if_pos hqmarker]; exact (ih q hq).2 ⟨hx, hxmarker, .inl rfl⟩⟩
        · obtain ⟨m, hm, hmarker, hq⟩ := spliced_iff.1 hq
          exact ⟨m, hm, by rw [if_pos hmarker]; exact (ih m hm).2 ⟨hx, hxmarker, .inr ⟨hq, hqmarker⟩⟩⟩

/-- **What is left in the scope of a node is what its block has that is not consumed,** in the order of the block, as
    far as neither children nor flags matter. -/
theorem map_merged {α : Type} {f : Node → α} (hchildren : ∀ n children, f { n with children } = f n)
    (hinherited : ∀ n flag, f { n with inherited := flag } = f n) (p : Node) :
    p.merged.map f = p.handedOn.map fun place => f place.2 := by
  induction p using childInduction with
  | step p ih =>
    rw [merged, map_mergeNodes hchildren, handedOn, scope_eq_flatMap, block_eq, List.filter_flatMap,
      List.filter_flatMap, List.map_flatMap, List.map_flatMap, ← scope_eq_flatMap]
    apply List.flatMap_congr
    intro c hc
    rw [leaves_eq]
    cases hmarker : c.isMarker with
    | true =>
      -- What a marker has handed on is not consumed any more.
      have hstays : (c.left c.merged).filter (fun m => !consumedIn p.scope m) = c.left c.merged :=
        List.filter_eq_self.2 fun m hm => by
          rw [consumedIn_of_inherited (inherited_of_mem_left hmarker hm), Bool.not_false]
      have hflagged : (f ∘ fun m : Node => { m with inherited := true }) = f := funext fun m => hinherited m true
      rw [hstays, left_of_marker hmarker, List.map_map, hflagged, ih c hc, handedOn, if_pos rfl]
    | false =>
      have hsame : consumedIn p.scope { c with children := c.merged } = consumedIn p.scope c := rfl
      rw [left_of_not_marker hmarker, if_neg (by simp), List.filter_singleton, List.filter_singleton, hsame]
      cases hgone : consumedIn p.scope c <;> simp [consumed_iff_consumedIn, hgone, hchildren]

/-- A node has as many nodes in its merged scope as it would hand on. -/
theorem length_merged (p : Node) : p.merged.length = p.handedOn.length := by
  simpa using congrArg List.length (map_merged (f := fun _ => ()) (fun _ _ => rfl) (fun _ _ => rfl) p)

/-! ## Node by node -/

/-- A rule that is consumed under a node of the tree is one of the consumed rules of the tree. -/
theorem mem_consumedRules {root p r : Node} (hp : p ∈ root.preorder) (hr : r ∈ p.children) (h : Consumed p r) :
    r ∈ root.consumedRules := by
  rw [consumedRules_eq]
  exact List.mem_flatMap.2 ⟨p, hp, List.mem_filter.2 ⟨hr, consumed_iff_consumedIn.1 h⟩⟩

/-- What a run counts at the nodes it is done with: a scope for each that is no marker; for each marker, that it was
    spliced, and what it handed on; and the rules that disappeared from their scopes. -/
def counted (done : List Node) : Stats where
  scopes := done.countP fun n => !n.isMarker
  markersSpliced := done.countP isMarker
  nodesSpliced := ((done.filter isMarker).map fun m => m.handedOn.length).sum
  rulesMerged := (done.map fun p => p.consumedChildren.length).sum

/-- It makes no difference in which order nodes are counted. -/
theorem counted_perm {ns ms : List Node} (h : ns.Perm ms) : counted ns = counted ms := by
  simp only [counted, h.countP_eq, ((h.filter isMarker).map _).sum_eq, (h.map _).sum_eq]

theorem toll_of_marker {n : Node} (h : n.isMarker = true) :
    n.toll = { markersSpliced := 1, nodesSpliced := n.handedOn.length, rulesMerged := n.consumedChildren.length } := by
  obtain ⟨target, hkind⟩ := isMarker_iff.1 h
  rw [toll, countP_consumedIn_scope, ← consumedChildren_eq, settling, hkind, length_merged]
  simp [Stats.add_def]

theorem settling_of_not_marker {n : Node} (h : n.isMarker = false) (merged : List Node) :
    n.settling merged = { scopes := 1 } := by
  unfold isMarker at h
  unfold settling
  cases hkind : n.kind <;> simp_all

theorem toll_of_not_marker {n : Node} (h : n.isMarker = false) :
    n.toll = { scopes := 1, rulesMerged := n.consumedChildren.length } := by
  rw [toll, countP_consumedIn_scope, ← consumedChildren_eq, settling_of_not_marker h]
  simp [Stats.add_def]

/-- **What a run counts at some nodes can be read off the tree.** -/
theorem tolls_eq_counted (done : List Node) : tolls done = counted done := by
  induction done with
  | nil => rfl
  | cons n ns ih =>
    rw [tolls_cons, ih]
    cases h : n.isMarker with
    | true => simp [toll_of_marker h, counted, Stats.add_def, h, Nat.add_comm 1]
    | false => simp [toll_of_not_marker h, counted, Stats.add_def, h, Nat.add_comm 1]

/-- All of a successful run is counted. -/
theorem resolve_counted {root root' : Node} {s s' : Stats} (h : root.resolve.run.run s = (.ok root', s')) :
    s' = s + counted root.preorder := by
  obtain ⟨hroot, -, -, rfl⟩ := resolve_ok h
  rw [← counted_perm (map_fst_postorder_perm root), ← tolls_eq_counted, tolls_postorder,
    settling_of_not_marker hroot, Stats.add_assoc]

/-! ## Nodes left -/

/-- If what is read off a node hangs on nothing around it, adding up is adding up over a visit. -/
theorem gather_eq_sum {M : Type} [AddCommMonoid M] {own : List Kind → Node → M} {f : Node → M}
    (h : ∀ around n, own around n = f n) (around : List Kind) (root : Node) :
    gather own around root = (root.preorder.map f).sum := by
  rw [gather, ← map_snd_placed root around, List.map_map]
  exact congrArg List.sum (List.map_congr_left fun place _ => h place.1 place.2)

/-- One for each node with the property. -/
def indicator (property : Node → Bool) (_ : List Kind) (n : Node) : Nat :=
  if property n then 1 else 0

theorem sum_indicator (property : Node → Bool) (around : List Kind) (ns : List Node) :
    (ns.map (indicator property around)).sum = ns.countP property := by
  induction ns with
  | nil => rfl
  | cons n ns ih => rw [List.map_cons, List.sum_cons, ih, List.countP_cons, Nat.add_comm, indicator]

/-- To count the nodes with a property is to gather one for each. -/
theorem gather_indicator (property : Node → Bool) (root : Node) :
    gather (indicator property) [] root = root.count property := by
  have hsame : ∀ around n, indicator property around n = indicator property [] n := fun _ _ => rfl
  rw [gather_eq_sum hsame, sum_indicator, count]

/-- Of the nodes with a property that all rules and no markers have, a run takes those away that are consumed. -/
theorem count_resolved (property : Node → Bool) (hchildren : ∀ n children, property { n with children } = property n)
    (hinherited : ∀ n flag, property { n with inherited := flag } = property n)
    (hmarker : ∀ n, n.isMarker = true → property n = false) (hrule : ∀ n, n.isRule = true → property n = true)
    (root : Node) :
    ({ root with children := root.merged } : Node).count property + root.consumedRules.length
      = root.count property := by
  have hown : OwnOnly (indicator property) :=
    { children := fun _ n children => by rw [indicator, hchildren, indicator]
      inherited := fun _ n flag => by rw [indicator, hinherited, indicator]
      marker := fun _ n h => by rw [indicator, hmarker n h]; rfl }
  have hgone : ∀ around p, consumedBelow (indicator property) around p
      = (p.children.filter (consumedIn p.scope)).length := by
    intro around p
    rw [consumedBelow, sum_indicator, List.countP_eq_length]
    exact fun r hr => hrule r (consumedIn_isRule (List.mem_filter.1 hr).2)
  have hmerged := gather_merged hown [] root
  rwa [gather_indicator, gather_indicator, gather_eq_sum hgone, ← List.length_flatMap, ← consumedRules_eq] at hmerged

/-- The rules that are left and those that are consumed are all the rules. -/
theorem count_isRule_resolved (root : Node) :
    ({ root with children := root.merged } : Node).count isRule + root.consumedRules.length = root.count isRule :=
  count_resolved isRule (fun _ _ => rfl) (fun _ _ => rfl) (fun _ h => isRule_of_marker h) (fun _ h => h) root

/-- No marker is left at any depth. -/
theorem isMarker_of_mem_resolved {root w : Node} (hroot : root.isMarker = false)
    (hw : w ∈ ({ root with children := root.merged } : Node).preorder) : w.isMarker = false := by
  rcases mem_preorder_resolved hw with rfl | ⟨q, -, hw⟩
  · exact hroot
  · obtain ⟨sources, horigin⟩ := exists_origin q w hw
    exact horigin.isMarker

/-- No marker is left below a root that is none. -/
theorem countMarkers_resolved {root : Node} (hroot : root.isMarker = false) :
    ({ root with children := root.merged } : Node).countMarkers = 0 :=
  List.countP_eq_zero.2 fun p hp => by simp [isMarker_of_mem_resolved hroot hp]

theorem count_not_marker_add_countMarkers (n : Node) :
    (n.count fun p => !p.isMarker) + n.countMarkers = n.countNodes := by
  have hlength := List.length_eq_countP_add_countP isMarker (l := n.preorder)
  simp only [countNodes, countMarkers, count, List.countP_true, hlength, Bool.not_eq_true, Bool.decide_eq_false,
    Nat.add_comm]

/-- Every node of a tree is in the resolved tree, a marker, or consumed. -/
theorem countNodes_resolved {root : Node} (hroot : root.isMarker = false) :
    ({ root with children := root.merged } : Node).countNodes + root.countMarkers + root.consumedRules.length
      = root.countNodes := by
  have hleft := count_resolved (fun n => !n.isMarker) (fun _ _ => rfl) (fun _ _ => rfl) (fun n h => by simp [h])
    (fun n h => by simp [isMarker_of_rule (isRule_iff.1 h).choose_spec]) root
  have hbefore := count_not_marker_add_countMarkers root
  have hafter := count_not_marker_add_countMarkers { root with children := root.merged }
  have hnone := countMarkers_resolved hroot
  omega

/-! ## The outcome -/

/-- **No marker survives a run, and everything it counts is exact.** -/
theorem resolve_counts {root root' : Node} {s s' : Stats} (h : root.resolve.run.run s = (.ok root', s')) :
    (∀ p ∈ root'.preorder, p.isMarker = false) ∧
      s' = s + {
        scopes := root.count fun n => !n.isMarker
        markersSpliced := root.countMarkers
        nodesSpliced := ((root.preorder.filter isMarker).map fun m => m.handedOn.length).sum
        rulesMerged := root.count isRule - root'.count isRule } ∧
      root'.count isRule ≤ root.count isRule ∧
      root'.countNodes + root.countMarkers + (s'.rulesMerged - s.rulesMerged) = root.countNodes := by
  have hcounted := resolve_counted h
  obtain ⟨hroot, -, rfl, -⟩ := resolve_ok h
  have hrules := count_isRule_resolved root
  have hnodes := countNodes_resolved hroot
  have hconsumed : (counted root.preorder).rulesMerged = root.consumedRules.length := by
    rw [consumedRules_eq_flatMap, List.length_flatMap]
    rfl
  have hmerged : (counted root.preorder).rulesMerged
      = root.count isRule - ({ root with children := root.merged } : Node).count isRule := by omega
  have hgrowth : s'.rulesMerged - s.rulesMerged = root.consumedRules.length := by
    rw [hcounted, Stats.add_rulesMerged, hconsumed, Nat.add_sub_cancel_left]
  refine ⟨fun p hp => isMarker_of_mem_resolved hroot hp, ?_, ?_, ?_⟩
  · rw [hcounted, ← hmerged]
    rfl
  · omega
  · omega

/-- A second run on the nested page counts as much as the first; the rule that stays is handed on by both markers. -/
theorem resolve_counts_nestedPage :
    ∃ page s, nestedPage.resolve.run.run { scopes := 4, markersSpliced := 2, nodesSpliced := 2, rulesMerged := 2 }
        = (.ok page, s) ∧ s = { scopes := 8, markersSpliced := 4, nodesSpliced := 4, rulesMerged := 4 } ∧
      (∀ p ∈ page.preorder, p.isMarker = false) ∧
        s = ({ scopes := 4, markersSpliced := 2, nodesSpliced := 2, rulesMerged := 2 } : Stats) + {
          scopes := nestedPage.count fun n => !n.isMarker
          markersSpliced := nestedPage.countMarkers
          nodesSpliced := ((nestedPage.preorder.filter isMarker).map fun m => m.handedOn.length).sum
          rulesMerged := nestedPage.count isRule - page.count isRule } ∧
        page.count isRule ≤ nestedPage.count isRule ∧
        page.countNodes + nestedPage.countMarkers + (s.rulesMerged - 2) = nestedPage.countNodes := by
  have hrun : nestedPage.resolve.run.run { scopes := 4, markersSpliced := 2, nodesSpliced := 2, rulesMerged := 2 } =
      (.ok { root "page.css" with
        children := [{ rule ".a" with inherited := true, location := ⟨"reset.css", 1⟩ }] },
        { scopes := 8, markersSpliced := 4, nodesSpliced := 4, rulesMerged := 4 }) := by
    rfl
  exact ⟨_, _, hrun, rfl, resolve_counts hrun⟩

end Node

end StyleTree
