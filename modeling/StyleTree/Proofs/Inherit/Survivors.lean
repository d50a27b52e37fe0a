import StyleTree.Proofs.Inherit.Accounting

/-!
# `Proofs.Inherit.Survivors` — in which order nodes survive, and with which flag

A marker hands its block on in its own place, and a rule that takes over the children of another stays where it is.
So the scope of a node is its block without the consumed rules, however often parts of it were merged on the way, and
the children of a resolved tree stand in the order of the block of the root (`resolve_keeps_order`).

The flag is raised on what a marker hands on, when its block is merged already: on its children and not on what is
inside them, nor on what a rule takes over later. With the flags that a run raises, the `labels` of a tree are those of
the resolved tree and of the consumed rules (`resolve_labels`); what a node adds to the scope around it and what is left
in its own are the two halves of that induction.
-/

namespace StyleTree

namespace Node

/-! ## Order -/

/-- **A run keeps the order.** The root of the resolved tree has, as children, the nodes of its block that are not
    consumed where they stand. -/
theorem resolve_keeps_order {root root' : Node} {s s' : Stats} (h : root.resolve.run.run s = (.ok root', s')) :
    root'.children.map (fun n => (n.kind, n.location))
      = (root.block.filter fun place => ¬Consumed place.1 place.2).map
          fun place => (place.2.kind, place.2.location) := by
  obtain ⟨-, -, rfl, -⟩ := resolve_ok h
  simp only [decide_not]
  exact map_merged (f := fun n => (n.kind, n.location)) (fun _ _ => rfl) (fun _ _ => rfl) root

/-- A page with rules in front of its markers, between them and behind them; one marker is inside another. -/
def interleavedPage : Node :=
  { root "page.css" with
    children := [
      { rule ".a" with location := ⟨"page.css", 2⟩ },
      { marker "base.css" with
        children := [
          { rule ".b" with location := ⟨"base.css", 1⟩ },
          { marker "reset.css" with
            children := [{ rule ".c" with location := ⟨"reset.css", 1⟩ }, { rule ".b" with location := ⟨"reset.css", 2⟩ }] },
          { rule ".c" with location := ⟨"base.css", 9⟩ },
          { rule ".d" with location := ⟨"base.css", 10⟩ }] },
      { rule ".d" with location := ⟨"page.css", 20⟩ },
      { rule ".e" with location := ⟨"page.css", 21⟩ },
      { rule ".e" with inherited := true, location := ⟨"page.css", 22⟩ }] }

theorem resolve_keeps_order_interleavedPage :
    ∃ page s, interleavedPage.resolve.run.run {} = (.ok page, s) ∧
      page.children.map (fun n => (n.kind, n.location))
        = (interleavedPage.block.filter fun place => ¬Consumed place.1 place.2).map
            (fun place => (place.2.kind, place.2.location)) ∧
      page.children.map (fun n => n.location)
        = [⟨"page.css", 2⟩, ⟨"reset.css", 1⟩, ⟨"reset.css", 2⟩, ⟨"base.css", 10⟩, ⟨"page.css", 22⟩] := by
  have hrun : interleavedPage.resolve.run.run {} =
      (.ok { root "page.css" with
        children := [
          { rule ".a" with location := ⟨"page.css", 2⟩ },
          { rule ".c" with inherited := true, location := ⟨"reset.css", 1⟩ },
          { rule ".b" with inherited := true, location := ⟨"reset.css", 2⟩ },
          { rule ".d" with inherited := true, location := ⟨"base.css", 10⟩ },
          { rule ".e" with inherited := true, location := ⟨"page.css", 22⟩ }] },
        { scopes := 10, markersSpliced := 2, nodesSpliced := 5, rulesMerged := 4 }) := by
    rfl
  exact ⟨_, _, hrun, resolve_keeps_order hrun, rfl⟩

/-! ## Labels -/

/-- What a node is, where it was declared, and whether it is flagged as inherited. -/
abbrev Label := Kind × Location × Bool

/-- The label of a node; a node that a marker hands on is flagged in any case. -/
def label (spliced : Bool) (n : Node) : Label :=
  (n.kind, n.location, n.inherited || spliced)

/-- The labels of the nodes below a node that are no markers. Markers raise the flag of their children. -/
def labelsBelow (n : Node) : List Label :=
  n.preorder.flatMap fun p => (p.children.filter fun c => !c.isMarker).map (label p.isMarker)

/-- The labels of the nodes of a tree that are no markers, for a root that is none. -/
def labels (root : Node) : List Label :=
  label false root :: root.labelsBelow

/-- The labels of the rules of a tree that disappear. -/
def consumedLabels (n : Node) : List Label :=
  n.preorder.flatMap fun p => (p.children.filter fun r => r.isRule && decide (Consumed p r)).map (label p.isMarker)

/-- What a visit collects at a node, and then below its children. -/
theorem flatMap_preorder {α : Type} (f : Node → List α) (n : Node) :
    n.preorder.flatMap f = f n ++ n.children.flatMap fun c => c.preorder.flatMap f := by
  rw [preorder_eq, List.flatMap_cons, preorderAll_eq_flatMap, List.flatMap_assoc]

/-! ## One scope -/

/-- The label of a node on its own. -/
def ownLabel (spliced : Bool) (n : Node) : Multiset Label :=
  {n.label spliced}

/-- The labels at and below a node that a run has already resolved. -/
def resolvedLabels (_ : Kind) (n : Node) : Multiset Label :=
  (n.preorder.map (label false) : List Label)

theorem weight_label_false (n : Node) : weight (ownLabel false) resolvedLabels n = resolvedLabels n.kind n := by
  rw [weight, resolvedLabels, preorder_eq, List.map_cons, preorderAll_eq_flatMap, List.map_flatMap, ← Multiset.cons_coe,
    ← Multiset.singleton_add, Multiset.coe_flatMap]
  rfl

/-- A node whose flag is raised has the label that it would have behind a marker. -/
theorem weight_label_flagged (spliced : Bool) (n : Node) :
    weight (ownLabel spliced) resolvedLabels ({ n with inherited := true } : Node)
      = weight (ownLabel true) resolvedLabels n := by
  have hlabel : ownLabel spliced ({ n with inherited := true } : Node) = ownLabel true n := by
    simp [ownLabel, label]
  rw [weight, weight, hlabel]

theorem labelsBelow_eq (n : Node) :
    n.labelsBelow = (n.children.filter fun c => !c.isMarker).map (label n.isMarker) ++ n.children.flatMap labelsBelow :=
  flatMap_preorder _ n

theorem consumedLabels_eq (n : Node) :
    n.consumedLabels = n.consumedChildren.map (label n.isMarker) ++ n.children.flatMap consumedLabels :=
  flatMap_preorder _ n

/-- What a node leaves in the scope around it, given the same of its own children. -/
theorem sum_labels_leaves (spliced : Bool) {c : Node}
    (h : (c.merged.map (weight (ownLabel c.isMarker) resolvedLabels)).sum + (c.consumedLabels : Multiset Label)
      = c.labelsBelow) :
    (c.leaves.map (weight (ownLabel spliced) resolvedLabels)).sum + (c.consumedLabels : Multiset Label)
      = (([c].filter fun c => !c.isMarker).map (label spliced) : List Label) + (c.labelsBelow : Multiset Label) := by
  rw [leaves_eq, List.filter_singleton]
  cases hmarker : c.isMarker with
  | true =>
    have hflagged : (weight (ownLabel spliced) resolvedLabels ∘ fun m : Node => { m with inherited := true })
        = weight (ownLabel true) resolvedLabels := funext fun m => weight_label_flagged spliced m
    rw [hmarker] at h
    rw [left_of_marker hmarker, List.map_map, hflagged, h]
    simp
  | false =>
    -- Below the node itself the flags are those that its own scope was left with.
    have hinside : (c.merged.map (weight (ownLabel false) resolvedLabels)).sum
        = (c.merged.map (resolvedLabels c.kind)).sum :=
      congrArg List.sum (List.map_congr_left fun m _ => weight_label_false m)
    rw [hmarker, hinside] at h
    rw [left_of_not_marker hmarker, List.map_singleton, List.sum_singleton, weight, add_assoc, h]
    rfl

/-- **What is left in the scope of a node has the labels of what was below the node,** but for the consumed rules. -/
theorem sum_labels_merged (n : Node) :
    (n.merged.map (weight (ownLabel n.isMarker) resolvedLabels)).sum + (n.consumedLabels : Multiset Label)
      = n.labelsBelow := by
  induction n using childInduction with
  | step n ih =>
    have hown : ∀ (m : Node) children, ownLabel n.isMarker { m with children } = ownLabel n.isMarker m :=
      fun _ _ => rfl
    have hmerge := sum_weight_mergeNodes resolvedLabels hown n.scope
    -- The rules that disappear in the merge are children of the node, since a marker hands on nothing native.
    have hgone : ((n.scope.filter (consumedIn n.scope)).map (ownLabel n.isMarker)).sum
        = (n.consumedChildren.map (label n.isMarker) : List Label) := by
      have hchildren := map_filter_consumedIn_leaves (f := ownLabel n.isMarker) (fun _ _ => rfl) n.scope n.children
      rw [← scope_eq_flatMap, ← consumedChildren_eq] at hchildren
      rw [hchildren, Multiset.coe_map_eq_sum]
      rfl
    have hscope : (n.scope.map (weight (ownLabel n.isMarker) resolvedLabels)).sum
          + (n.children.flatMap consumedLabels : Multiset Label)
        = ((n.children.filter fun c => !c.isMarker).map (label n.isMarker) : List Label)
          + (n.children.flatMap labelsBelow : Multiset Label) := by
      rw [scope_eq_flatMap]
      revert ih
      generalize n.children = cs
      intro ih
      induction cs with
      | nil => rfl
      | cons c cs ihcs =>
        have hc := sum_labels_leaves n.isMarker (ih c List.mem_cons_self)
        have hcs := ihcs fun d hd => ih d (List.mem_cons_of_mem _ hd)
        rw [List.flatMap_cons, List.flatMap_cons, List.flatMap_cons, List.map_append, List.sum_append,
          ← Multiset.coe_add, ← Multiset.coe_add, ← List.singleton_append (l := cs), List.filter_append,
          List.map_append, ← Multiset.coe_add, add_add_add_comm, hc, hcs, add_add_add_comm]
    rw [consumedLabels_eq, labelsBelow_eq, ← Multiset.coe_add, ← Multiset.coe_add, ← hscope, ← hmerge, hgone, add_assoc]
    rfl

/-! ## Flags -/

/-- The label of a node that is neither rule nor marker. -/
def Label.isOther (l : Label) : Bool :=
  match l.1 with
  | .other _ _ => true
  | _ => false

/-- **What a run changes of the nodes themselves.** Together with the labels of the consumed rules, the labels of the
    resolved tree are those of the tree, in which markers raise the flag of their children and of nothing else. None of
    the nodes that are neither rules nor markers is among the consumed. -/
theorem resolve_labels {root root' : Node} {s s' : Stats} (h : root.resolve.run.run s = (.ok root', s')) :
    (root'.preorder.map (label false) : Multiset Label) + (root.consumedLabels : Multiset Label) = root.labels ∧
      ((root'.preorder.map (label false)).filter Label.isOther : Multiset Label)
        = (root.labels.filter Label.isOther : List Label) := by
  obtain ⟨hroot, -, rfl, -⟩ := resolve_ok h
  have hresolved : (({ root with children := root.merged } : Node).preorder.map (label false) : Multiset Label)
      = {label false root} + (root.merged.map (weight (ownLabel false) resolvedLabels)).sum := by
    have hinside : root.merged.map (weight (ownLabel false) resolvedLabels) = root.merged.map (resolvedLabels root.kind) :=
      List.map_congr_left fun m _ => weight_label_false m
    rw [hinside]
    exact (weight_label_false { root with children := root.merged }).symm
  have hall : (({ root with children := root.merged } : Node).preorder.map (label false) : Multiset Label)
      + (root.consumedLabels : Multiset Label) = root.labels := by
    have hbelow := sum_labels_merged root
    rw [hroot] at hbelow
    rw [hresolved, add_assoc, hbelow]
    rfl
  refine ⟨hall, ?_⟩
  have hnone : root.consumedLabels.filter Label.isOther = [] := by
    apply List.filter_eq_nil_iff.2
    intro l hl
    obtain ⟨p, -, hl⟩ := List.mem_flatMap.1 hl
    obtain ⟨r, hr, rfl⟩ := List.mem_map.1 hl
    have hrule : r.isRule = true := by
      have hmem := (List.mem_filter.1 hr).2
      rw [Bool.and_eq_true] at hmem
      exact hmem.1
    obtain ⟨selector, hkind⟩ := isRule_iff.1 hrule
    simp [Label.isOther, label, hkind]
  have hperm := (Multiset.coe_eq_coe.1 ((Multiset.coe_add _ _).symm.trans hall)).filter Label.isOther
  rw [List.filter_append, hnone, List.append_nil] at hperm
  exact Multiset.coe_eq_coe.2 hperm

/-- A page with a rule that was flagged before, a rule in two markers, and a rule that takes over a nested one. -/
def flaggedPage : Node :=
  { root "page.css" with
    children := [
      { rule ".a" with inherited := true, location := ⟨"page.css", 2⟩ },
      { marker "base.css" with
        children := [
          { marker "reset.css" with
            children := [
              { rule ".b" with location := ⟨"reset.css", 1⟩, children := [declaration "margin: 0"] }] },
          { declaration "color: red" with location := ⟨"base.css", 5⟩ }] },
      { rule ".b" with
        location := ⟨"page.css", 9⟩
        children := [{ rule ".c" with location := ⟨"page.css", 10⟩ }] }] }

theorem resolve_labels_flaggedPage :
    ∃ page s, flaggedPage.resolve.run.run {} = (.ok page, s) ∧
      (page.preorder.map (label false) : Multiset Label) + (flaggedPage.consumedLabels : Multiset Label)
        = flaggedPage.labels ∧
      ((page.preorder.map (label false)).filter Label.isOther : Multiset Label)
        = (flaggedPage.labels.filter Label.isOther : List Label) ∧
      page.preorder.map (label false) = [
        (.other "stylesheet" none, ⟨"page.css", 1⟩, false),
        (.rule (some ".a"), ⟨"page.css", 2⟩, true),
        (.rule (some ".b"), ⟨"reset.css", 1⟩, true),
        (.other "prop" (some "margin: 0"), ⟨"-", 1⟩, false),
        (.rule (some ".c"), ⟨"page.css", 10⟩, false),
        (.other "prop" (some "color: red"), ⟨"base.css", 5⟩, true)] := by
  have hrun : flaggedPage.resolve.run.run {} =
      (.ok { root "page.css" with
        children := [
          { rule ".a" with inherited := true, location := ⟨"page.css", 2⟩ },
          { rule ".b" with
            inherited := true
            location := ⟨"reset.css", 1⟩
            children := [declaration "margin: 0", { rule ".c" with location := ⟨"page.css", 10⟩ }] },
          { declaration "color: red" with inherited := true, location := ⟨"base.css", 5⟩ }] },
        { scopes := 7, markersSpliced := 2, nodesSpliced := 3, rulesMerged := 1 }) := by
    rfl
  exact ⟨_, _, hrun, (resolve_labels hrun).1, (resolve_labels hrun).2, rfl⟩

end Node

end StyleTree
