import Mathlib.Algebra.BigOperators.Group.List.Basic
import StyleTree.Inherit.Resolve
import StyleTree.Proofs.Inherit.Turns
import StyleTree.Proofs.Node.Walk

/-!
# `Proofs.Inherit.Pass` — what a run does

A run counts, may fail, and unwinds through the nodes whose scopes are open. Here the three are taken apart:
which nodes end up in which scope is a function of the tree alone, so is what is counted on the way, and so is
whether the run fails.

* `scope` and `merged` are the scope of a node before and after its merge, and `leaves` is what a node leaves in the
  scope around it.
* `spent` is what is counted while a scope fills. Added up over the nodes of a tree, children first, the `toll` of each
  node comes to the same (`tolls_postorder`).
* If no scope lacks a selector, a run returns that tree and has counted that much (`resolve_run`). Otherwise it fails at
  the first node in postorder whose scope does (`FirstLacking`), with the counts of the nodes before it
  (`resolve_fails`).
-/

namespace StyleTree

/-! ## Counts -/

instance : Add Stats where
  add a b :=
    { scopes := a.scopes + b.scopes
      markersSpliced := a.markersSpliced + b.markersSpliced
      nodesSpliced := a.nodesSpliced + b.nodesSpliced
      rulesMerged := a.rulesMerged + b.rulesMerged }

namespace Stats

theorem add_def (a b : Stats) :
    a + b = ⟨a.scopes + b.scopes, a.markersSpliced + b.markersSpliced, a.nodesSpliced + b.nodesSpliced,
      a.rulesMerged + b.rulesMerged⟩ := rfl

@[simp] theorem add_rulesMerged (a b : Stats) : (a + b).rulesMerged = a.rulesMerged + b.rulesMerged := rfl

theorem add_assoc (a b c : Stats) : a + b + c = a + (b + c) := by
  simp [add_def, Nat.add_assoc]

instance : Zero Stats where
  zero := {}

theorem zero_def : (0 : Stats) = {} := rfl

instance : AddCommMonoid Stats where
  add_assoc := Stats.add_assoc
  zero_add a := by simp [add_def, zero_def]
  add_zero a := by simp [add_def, zero_def]
  add_comm a b := by simp [add_def, Nat.add_comm]
  nsmul := nsmulRec

end Stats

namespace Node

/-! ## The tree alone -/

/-- What a node whose scope is complete leaves in the scope around it. -/
def left (n : Node) (merged : List Node) : List Node :=
  match n.kind with
  | .inherit _ => merged.map fun m => { m with inherited := true }
  | .rule _ | .other _ _ => [{ n with children := merged }]

/-- What is counted when a node whose scope is complete is settled. -/
def settling (n : Node) (merged : List Node) : Stats :=
  match n.kind with
  | .inherit _ => { markersSpliced := 1, nodesSpliced := merged.length }
  | .rule _ | .other _ _ => { scopes := 1 }

mutual

/-- What a node leaves in the scope around it, if no selector is missing. -/
def leaves : Node → List Node
  | ⟨kind, children, inherited, location⟩ =>
    left ⟨kind, children, inherited, location⟩ (mergeNodes (leavesAll children))

/-- What several nodes leave in the scope around them. -/
def leavesAll : List Node → List Node
  | [] => []
  | n :: ns => n.leaves ++ leavesAll ns

end

/-- The scope of a node before it is merged: what its children leave there. -/
def scope (n : Node) : List Node := leavesAll n.children

/-- The scope of a node after it was merged. -/
def merged (n : Node) : List Node := mergeNodes n.scope

/-- What a node leaves in the scope around it depends on its children through its merged scope alone. -/
theorem leaves_eq (n : Node) : n.leaves = n.left n.merged := by
  cases n; rfl

theorem leavesAll_eq_flatMap (ns : List Node) : leavesAll ns = ns.flatMap leaves := by
  induction ns with
  | nil => rfl
  | cons n ns ih => rw [leavesAll, ih, List.flatMap_cons]

theorem scope_eq_flatMap (n : Node) : n.scope = n.children.flatMap leaves :=
  leavesAll_eq_flatMap n.children

theorem isMarker_iff {n : Node} : n.isMarker = true ↔ ∃ target, n.kind = .inherit target := by
  unfold isMarker
  cases n.kind <;> simp

/-- A marker leaves its merged scope, flagged as inherited, and not itself. -/
theorem left_of_marker {n : Node} (h : n.isMarker = true) (merged : List Node) :
    n.left merged = merged.map fun m => { m with inherited := true } := by
  obtain ⟨target, hkind⟩ := isMarker_iff.1 h
  simp only [left, hkind]

/-- Any other node leaves itself, around its merged scope. -/
theorem left_of_not_marker {n : Node} (h : n.isMarker = false) (merged : List Node) :
    n.left merged = [{ n with children := merged }] := by
  unfold isMarker at h
  unfold left
  cases hkind : n.kind <;> simp_all

/-- All that a marker leaves in the scope around it is flagged as inherited. -/
theorem inherited_of_mem_left {n m : Node} (h : n.isMarker = true) {merged : List Node} (hm : m ∈ n.left merged) :
    m.inherited = true := by
  rw [left_of_marker h] at hm
  obtain ⟨_, -, rfl⟩ := List.mem_map.1 hm
  rfl

/-- What is native in a scope are the children themselves, with their own scopes merged: the property may hold
    neither of markers nor of what they leave, and must not hang on the children of a node. -/
theorem filter_leaves {property : Node → Bool} (hinherited : ∀ n, n.inherited = true → property n = false)
    (hmarker : ∀ n, n.isMarker = true → property n = false)
    (hchildren : ∀ n children, property { n with children } = property n) (ns : List Node) :
    (ns.flatMap leaves).filter property
      = (ns.filter property).map fun n => { n with children := n.merged } := by
  induction ns with
  | nil => rfl
  | cons n ns ih =>
    rw [List.flatMap_cons, List.filter_append, ih, leaves_eq, List.filter_cons]
    cases h : n.isMarker with
    | true =>
      have hnone : (n.left n.merged).filter property = [] :=
        List.filter_eq_nil_iff.2 fun m hm => by simp [hinherited m (inherited_of_mem_left h hm)]
      rw [hnone, hmarker n h]
      rfl
    | false =>
      rw [left_of_not_marker h, List.filter_singleton, hchildren]
      cases property n <;> rfl

mutual

/-- What is counted until the scope of a node is merged. -/
def spent : Node → Stats
  | ⟨_, children, _, _⟩ =>
    spentAll children + { rulesMerged := (leavesAll children).countP (consumedIn (leavesAll children)) }

/-- What is counted while several nodes fill the scope around them. -/
def spentAll : List Node → Stats
  | [] => {}
  | n :: ns => n.spent + n.settling n.merged + spentAll ns

end

/-- Whether no scope at or below the node lacks a selector that its merge asks for. -/
def SelectorsSuffice (n : Node) : Prop :=
  ∀ p ∈ n.preorder, lacksSelector p.scope = false

/-- A run gets through a node if it gets through its children and can merge what they leave. -/
theorem selectorsSuffice_iff {n : Node} :
    n.SelectorsSuffice ↔ lacksSelector n.scope = false ∧ ∀ child ∈ n.children, child.SelectorsSuffice := by
  constructor
  · intro h
    refine ⟨h n (mem_preorder_iff.2 (.inl rfl)), ?_⟩
    intro child hchild p hp
    exact h p (mem_preorder_iff.2 (.inr ⟨child, hchild, hp⟩))
  · rintro ⟨hn, hchildren⟩ p hp
    rcases mem_preorder_iff.1 hp with rfl | ⟨child, hchild, hp⟩
    · exact hn
    · exact hchildren child hchild p hp

/-- If a run gets through a tree, it can merge the scope of every node of the tree. -/
theorem SelectorsSuffice.of_mem_postorder {n p : Node} {around : List Node} (h : n.SelectorsSuffice)
    (hp : (p, around) ∈ n.postorder) : lacksSelector p.scope = false :=
  h p ((map_fst_postorder_perm n).mem_iff.1 (List.mem_map_of_mem hp))

/-! ## Node by node -/

/-- What is counted at a node itself, when its scope is merged and when it is settled. -/
def toll (n : Node) : Stats :=
  { rulesMerged := n.scope.countP (consumedIn n.scope) } + n.settling n.merged

/-- What is counted at several nodes. -/
def tolls (ns : List Node) : Stats :=
  (ns.map toll).sum

theorem tolls_cons (n : Node) (ns : List Node) : tolls (n :: ns) = n.toll + tolls ns := by
  simp [tolls]

theorem tolls_append (ns ms : List Node) : tolls (ns ++ ms) = tolls ns + tolls ms := by
  simp [tolls]

/-- A node spends what its children spend, and one merged rule for each that disappears from its scope. -/
theorem spent_eq (n : Node) :
    n.spent = spentAll n.children + { rulesMerged := n.scope.countP (consumedIn n.scope) } := by
  cases n; rfl

theorem tolls_postorderAll_of_forall {ns : List Node}
    (h : ∀ n ∈ ns, tolls (n.postorder.map Prod.fst) = n.spent + n.settling n.merged) :
    tolls ((postorderAll ns).map Prod.fst) = spentAll ns := by
  induction ns with
  | nil => rfl
  | cons n ns ih =>
    rw [postorderAll, List.map_append, tolls_append, h n List.mem_cons_self,
      ih fun m hm => h m (List.mem_cons_of_mem _ hm), spentAll]

/-- Node by node, what is counted for a tree adds up to what is spent on it. -/
theorem tolls_postorder (n : Node) : tolls (n.postorder.map Prod.fst) = n.spent + n.settling n.merged := by
  induction n using childInduction with
  | step n ih =>
    have hself : tolls [n] = n.toll := add_zero n.toll
    rw [map_fst_postorder, tolls_append, tolls_postorderAll_of_forall ih, hself, toll, spent_eq, Stats.add_assoc]

/-- The tolls of the nodes of several trees, children first, add up to what the trees spend. -/
theorem tolls_postorderAll (ns : List Node) : tolls ((postorderAll ns).map Prod.fst) = spentAll ns :=
  tolls_postorderAll_of_forall fun n _ => tolls_postorder n

/-- Of the given nodes, each with the nodes around it, `place` is the first whose scope lacks a selector, and
    `before` are those in front of it. No scope inside it lacks one. -/
structure FirstLacking (places before : List (Node × List Node)) (place : Node × List Node) : Prop where
  split : ∃ after, places = before ++ place :: after
  before : ∀ earlier ∈ before, lacksSelector earlier.1.scope = false
  lacks : lacksSelector place.1.scope = true
  inside : ∀ child ∈ place.1.children, child.SelectorsSuffice

namespace FirstLacking

variable {places before : List (Node × List Node)} {place : Node × List Node}

/-- What comes behind the first scope that lacks a selector makes no difference. -/
theorem append_right (h : FirstLacking places before place) (more : List (Node × List Node)) :
    FirstLacking (places ++ more) before place := by
  obtain ⟨after, hsplit⟩ := h.split
  exact ⟨⟨after ++ more, by simp [hsplit]⟩, h.before, h.lacks, h.inside⟩

/-- Nodes whose scopes lack nothing may come in front. -/
theorem append_left (h : FirstLacking places before place) {front : List (Node × List Node)}
    (hfront : ∀ earlier ∈ front, lacksSelector earlier.1.scope = false) :
    FirstLacking (front ++ places) (front ++ before) place := by
  obtain ⟨after, hsplit⟩ := h.split
  refine ⟨⟨after, by simp [hsplit]⟩, fun earlier hearlier => ?_, h.lacks, h.inside⟩
  exact (List.mem_append.1 hearlier).elim (hfront earlier) (h.before earlier)

/-- Seen from further out, there are more nodes around each. -/
theorem map (h : FirstLacking places before place) (outer : List Node) :
    FirstLacking (places.map fun p => (p.1, p.2 ++ outer)) (before.map fun p => (p.1, p.2 ++ outer))
      (place.1, place.2 ++ outer) := by
  obtain ⟨after, hsplit⟩ := h.split
  refine ⟨⟨after.map fun p => (p.1, p.2 ++ outer), by simp [hsplit]⟩, fun earlier hearlier => ?_, h.lacks, h.inside⟩
  obtain ⟨p, hp, rfl⟩ := List.mem_map.1 hearlier
  exact h.before p hp

/-- The nodes in front are all those up to the first that lacks a selector. -/
theorem before_eq (h : FirstLacking places before place) :
    before = places.takeWhile fun p => !lacksSelector p.1.scope := by
  obtain ⟨after, hsplit⟩ := h.split
  have hbefore : ∀ p ∈ before, (!lacksSelector p.1.scope) = true := fun p hp => by simp [h.before p hp]
  rw [hsplit, List.takeWhile_append_of_pos hbefore, List.takeWhile_cons_of_neg (by simp [h.lacks]), List.append_nil]

theorem find?_eq (h : FirstLacking places before place) :
    places.find? (fun p => lacksSelector p.1.scope) = some place := by
  obtain ⟨after, hsplit⟩ := h.split
  have hbefore : before.find? (fun p => lacksSelector p.1.scope) = none :=
    List.find?_eq_none.2 fun p hp => by simp [h.before p hp]
  rw [hsplit, List.find?_append, hbefore, Option.none_or]
  exact List.find?_cons_of_pos h.lacks

/-- There is only one first node whose scope lacks a selector. -/
theorem unique (h : FirstLacking places before place) {before' : List (Node × List Node)} {place' : Node × List Node}
    (h' : FirstLacking places before' place') : before = before' ∧ place = place' :=
  ⟨h.before_eq.trans h'.before_eq.symm, Option.some.inj (h.find?_eq.symm.trans h'.find?_eq)⟩

end FirstLacking

/-- The failure of a run at a node with a scope that lacks a selector, given the nodes around it. -/
def lackingFailure (place : Node × List Node) : Failure where
  cause := .unresolvedSelector
  backtrace := (place.1 :: place.2).map location

end Node

/-! ## The run -/

namespace ResolveM

variable {α β : Type}

/-- An action that follows another goes on with its counts, or does not begin. -/
theorem run_bind (action : ResolveM α) (next : α → ResolveM β) (s : Stats) :
    (action >>= next).run.run s =
      match action.run.run s with
      | (.ok a, s') => (next a).run.run s'
      | (.error failure, s') => (.error failure, s') := by
  show (ExceptT.run (action >>= next)).run s = _
  simp only [ExceptT.run_bind, StateT.run_bind]
  rcases action.run.run s with ⟨_ | _, _⟩ <;> rfl

/-- A failure that passes through a node learns where the node is. The counts are kept. -/
theorem run_within (location : Location) (action : ResolveM α) (s : Stats) :
    (within location action).run.run s =
      match action.run.run s with
      | (.ok a, s') => (.ok a, s')
      | (.error failure, s') => (.error (failure.within location), s') := by
  have hrun : StateT.run (m := Id) action s = action.run.run s := rfl
  simp only [within, tryCatch, tryCatchThe, MonadExceptOf.tryCatch, ExceptT.tryCatch, ExceptT.run_mk,
    StateT.run_bind, hrun]
  rcases action.run.run s with ⟨_ | _, _⟩ <;> rfl

theorem run_pure (a : α) (s : Stats) : (pure a : ResolveM α).run.run s = (.ok a, s) := rfl

/-- The merge of a scope counts the rules that disappear, or fails. -/
theorem run_mergeScope (scope : List Node) (s : Stats) :
    (mergeScope scope).run.run s =
      if lacksSelector scope then (.error { cause := .unresolvedSelector }, s)
      else (.ok (mergeNodes scope), s + { rulesMerged := scope.countP (consumedIn scope) }) := by
  unfold mergeScope
  rw [run_bind, merge_eq]
  cases lacksSelector scope <;> rfl

end ResolveM

namespace Node

open ResolveM

theorem run_complete (n : Node) (merged : List Node) (s : Stats) :
    (n.complete merged).run.run s = (.ok { n with children := merged }, s + { scopes := 1 }) := rfl

/-- To settle a node is to leave what it leaves and to count it, and cannot fail. -/
theorem run_settle (n : Node) (merged : List Node) (s : Stats) :
    (n.settle merged).run.run s = (.ok (n.left merged), s + n.settling merged) := by
  obtain ⟨kind, children, inherited, location⟩ := n
  unfold settle left settling
  cases kind with
  | inherit target => rfl
  | rule selector => simp only [run_bind, run_complete, run_pure]
  | other tag text => simp only [run_bind, run_complete, run_pure]

mutual

/-- The scope of a node that has all selectors it needs is completed and merged. -/
theorem mergedChildren_run : ∀ (n : Node) (s : Stats), n.SelectorsSuffice →
    n.mergedChildren.run.run s = (.ok n.merged, s + n.spent)
  | ⟨kind, children, inherited, location⟩, s, h => by
    obtain ⟨hscope, hchildren⟩ := selectorsSuffice_iff.1 h
    have hscope : lacksSelector (leavesAll children) = false := hscope
    -- First the children fill the scope, then it is merged; nothing fails, so the backtrace is not touched.
    rw [mergedChildren, run_within, run_bind, scopeOf_run children s hchildren]
    simp only [run_mergeScope, hscope]
    rw [spent, ← Stats.add_assoc]
    rfl

/-- The same for the scope that several nodes fill. -/
theorem scopeOf_run : ∀ (ns : List Node) (s : Stats), (∀ n ∈ ns, n.SelectorsSuffice) →
    (scopeOf ns).run.run s = (.ok (leavesAll ns), s + spentAll ns)
  | [], s, _ => rfl
  | n :: ns, s, h => by
    rw [scopeOf, run_bind, mergedChildren_run n s (h n List.mem_cons_self)]
    simp only [run_bind, run_settle]
    rw [scopeOf_run ns _ fun m hm => h m (List.mem_cons_of_mem _ hm)]
    rw [leavesAll, spentAll, leaves_eq, ← Stats.add_assoc, ← Stats.add_assoc]
    rfl

end

mutual

/-- A run fails at the first scope that lacks a selector. What was counted at the nodes before is kept, and the
    failure unwinds through the nodes around it. -/
theorem mergedChildren_fails : ∀ (n : Node) (s : Stats), ¬n.SelectorsSuffice →
    ∃ before place, FirstLacking n.postorder before place ∧
      n.mergedChildren.run.run s = (.error (lackingFailure place), s + tolls (before.map Prod.fst))
  | ⟨kind, children, inherited, location⟩, s, h => by
    rw [postorder, mergedChildren, run_within, run_bind]
    by_cases hchildren : ∀ child ∈ children, child.SelectorsSuffice
    · -- The children fill the scope, and it is the merge that fails.
      have hscope : lacksSelector (leavesAll children) = true := by
        by_contra hscope
        exact h (selectorsSuffice_iff.2 ⟨(Bool.not_eq_true _).mp hscope, hchildren⟩)
      refine ⟨_, _, ⟨⟨[], rfl⟩, fun earlier hearlier => ?_, hscope, hchildren⟩, ?_⟩
      · obtain ⟨⟨p, around⟩, hp, rfl⟩ := List.mem_map.1 hearlier
        rw [postorderAll_eq_flatMap, List.mem_flatMap] at hp
        obtain ⟨child, hchild, hp⟩ := hp
        exact (hchildren child hchild).of_mem_postorder hp
      · rw [scopeOf_run children s hchildren, List.map_map]
        simp only [run_mergeScope, hscope]
        rw [← tolls_postorderAll]
        rfl
    · obtain ⟨before, place, hfirst, hfails⟩ := scopeOf_fails children s hchildren
      refine ⟨_, _, (hfirst.map [⟨kind, children, inherited, location⟩]).append_right _, ?_⟩
      rw [hfails, List.map_map]
      simp [lackingFailure, Failure.within, Function.comp_def]

/-- The same for several nodes: the first that a run does not get through fails it, and those in front are counted in
    full. -/
theorem scopeOf_fails : ∀ (ns : List Node) (s : Stats), ¬(∀ n ∈ ns, n.SelectorsSuffice) →
    ∃ before place, FirstLacking (postorderAll ns) before place ∧
      (scopeOf ns).run.run s = (.error (lackingFailure place), s + tolls (before.map Prod.fst))
  | [], s, h => absurd (fun _ hn => nomatch hn) h
  | n :: ns, s, h => by
    rw [postorderAll, scopeOf, run_bind]
    by_cases hn : n.SelectorsSuffice
    · -- The first node is settled before a later one fails, so its counts are kept.
      obtain ⟨before, place, hfirst, hfails⟩ := scopeOf_fails ns (s + n.spent + n.settling n.merged)
        fun hns => h (List.forall_mem_cons.2 ⟨hn, hns⟩)
      refine ⟨_, _, hfirst.append_left fun earlier hearlier => hn.of_mem_postorder hearlier, ?_⟩
      rw [mergedChildren_run n s hn]
      simp only [run_bind, run_settle, hfails]
      rw [List.map_append, tolls_append, tolls_postorder, Stats.add_assoc, Stats.add_assoc, Stats.add_assoc]
    · obtain ⟨before, place, hfirst, hfails⟩ := mergedChildren_fails n s hn
      refine ⟨_, _, hfirst.append_right _, ?_⟩
      rw [hfails]

end

theorem resolve_of_not_marker {root : Node} (h : root.isMarker = false) :
    root.resolve = root.mergedChildren >>= root.complete := by
  unfold isMarker at h
  unfold resolve
  cases hkind : root.kind <;> simp_all

/-- A tree with a root that is no marker and with all selectors it needs is resolved. -/
theorem resolve_run {root : Node} (hroot : root.isMarker = false) (h : root.SelectorsSuffice) (s : Stats) :
    root.resolve.run.run s
      = (.ok { root with children := root.merged }, s + root.spent + { scopes := 1 }) := by
  rw [resolve_of_not_marker hroot, run_bind, mergedChildren_run root s h]
  rfl

/-- Any other tree fails. -/
theorem resolve_fails {root : Node} (h : ¬(root.isMarker = false ∧ root.SelectorsSuffice)) (s : Stats) :
    ∃ failure s', root.resolve.run.run s = (.error failure, s') := by
  cases hroot : root.isMarker with
  | true =>
    obtain ⟨target, hkind⟩ := isMarker_iff.1 hroot
    rw [resolve, hkind]
    exact ⟨_, _, rfl⟩
  | false =>
    obtain ⟨before, place, -, hfails⟩ := mergedChildren_fails root s fun hsuffice => h ⟨hroot, hsuffice⟩
    rw [resolve_of_not_marker hroot, run_bind, hfails]
    exact ⟨_, _, rfl⟩

/-- A run on a tree whose root is no marker fails for one reason only. -/
theorem cause_of_resolve_fails {root : Node} (hroot : root.isMarker = false) {failure : Failure} {s s' : Stats}
    (h : root.resolve.run.run s = (.error failure, s')) : failure.cause = .unresolvedSelector := by
  by_cases hsuffice : root.SelectorsSuffice
  · rw [resolve_run hroot hsuffice] at h
    cases h
  · obtain ⟨before, place, -, hfails⟩ := mergedChildren_fails root s hsuffice
    rw [resolve_of_not_marker hroot, run_bind, hfails] at h
    cases h
    rfl

/-- **What a successful run returns and counts.** -/
theorem resolve_ok {root root' : Node} {s s' : Stats} (h : root.resolve.run.run s = (.ok root', s')) :
    root.isMarker = false ∧ root.SelectorsSuffice ∧ root' = { root with children := root.merged } ∧
      s' = s + root.spent + { scopes := 1 } := by
  by_cases hroot : root.isMarker = false ∧ root.SelectorsSuffice
  · rw [resolve_run hroot.1 hroot.2] at h
    cases h
    exact ⟨hroot.1, hroot.2, rfl, rfl⟩
  · obtain ⟨failure, s'', hfails⟩ := resolve_fails hroot s
    rw [hfails] at h
    cases h

end Node

end StyleTree
