import Mathlib.Tactic.Abel
import StyleTree.Proofs.Inherit.Effective
import StyleTree.Proofs.Prelude

/-!
# `Proofs.Inherit.Conservation` — a run loses nothing and moves nothing

Nodes leave their parents in two ways: a marker hands its children to the scope around it, and a rule that
disappears gives its children to an inherited rule of the same selector. Neither changes the rules and other
nodes around a node, if markers do not count. So whatever is read off each node and the nodes around it (`Node.gather`)
adds up to the same in the tree before a run and after it, but for the rules that disappeared.

The argument is made for one merge, where what is left of a scope and what disappeared weigh as much as the scope
(`sum_weight_mergeNodes`), and then for the children of a node in the whole tree (`gatherAll_merged`). What it comes to
is `resolve_conserves`: the nodes that are neither rules nor markers stay, each inside the same rules and other nodes,
and so do the selectors that rules stand for.
-/

namespace StyleTree

namespace Node

/-! ## Adding up -/

/-- The kinds around the children of a node, from the root inwards, given those around the node itself. A
    marker does not count. -/
def Kind.below (around : List Kind) : Kind → List Kind
  | .inherit _ => around
  | kind => around ++ [kind]

mutual

/-- The node and its descendants in the order of a visit, each with the kinds of the nodes around it from the
    root inwards, markers left out. -/
def placed (around : List Kind) : Node → List (List Kind × Node)
  | ⟨kind, children, inherited, location⟩ =>
    (around, ⟨kind, children, inherited, location⟩) :: placedAll (kind.below around) children

/-- The nodes of several trees, one tree after the other. -/
def placedAll (around : List Kind) : List Node → List (List Kind × Node)
  | [] => []
  | n :: ns => n.placed around ++ placedAll around ns

end

/-- A node stands inside what is around it, and what is inside the node stands inside the node as well. -/
theorem placed_eq (around : List Kind) (n : Node) :
    n.placed around = (around, n) :: placedAll (n.kind.below around) n.children := by
  cases n; rfl

theorem placedAll_eq_flatMap (around : List Kind) (ns : List Node) :
    placedAll around ns = ns.flatMap (placed around) := by
  induction ns with
  | nil => rfl
  | cons n ns ih => rw [placedAll, ih, List.flatMap_cons]

variable {M : Type} [AddCommMonoid M]

/-- The sum of what is read off the nodes of a tree. -/
def gather (own : List Kind → Node → M) (around : List Kind) (n : Node) : M :=
  ((n.placed around).map fun place => own place.1 place.2).sum

/-- The sum of what is read off the nodes of several trees. -/
def gatherAll (own : List Kind → Node → M) (around : List Kind) (ns : List Node) : M :=
  (ns.map (gather own around)).sum

/-- What is read off a tree is read off the root and off the trees inside it. -/
theorem gather_eq (own : List Kind → Node → M) (around : List Kind) (n : Node) :
    gather own around n = own around n + gatherAll own (n.kind.below around) n.children := by
  rw [gather, placed_eq, List.map_cons, List.sum_cons, gatherAll, placedAll_eq_flatMap]
  congr 1
  induction n.children with
  | nil => rfl
  | cons c cs ih => rw [List.flatMap_cons, List.map_append, List.sum_append, ih, List.map_cons, List.sum_cons, gather]

@[simp] theorem gatherAll_nil (own : List Kind → Node → M) (around : List Kind) :
    gatherAll own around [] = 0 := rfl

@[simp] theorem gatherAll_cons (own : List Kind → Node → M) (around : List Kind) (n : Node) (ns : List Node) :
    gatherAll own around (n :: ns) = gather own around n + gatherAll own around ns := by
  simp [gatherAll]

@[simp] theorem gatherAll_append (own : List Kind → Node → M) (around : List Kind) (ns ms : List Node) :
    gatherAll own around (ns ++ ms) = gatherAll own around ns + gatherAll own around ms := by
  simp [gatherAll]

/-- What is read off a node does not hang on its children, nor on its being flagged, and nothing is read off
    a marker. -/
structure OwnOnly (own : List Kind → Node → M) : Prop where
  children : ∀ around n children, own around { n with children } = own around n
  inherited : ∀ around n flag, own around { n with inherited := flag } = own around n
  marker : ∀ around n, n.isMarker = true → own around n = 0

/-- With other children, a node has the same read off itself. -/
theorem gather_withChildren {own : List Kind → Node → M} (h : OwnOnly own) (around : List Kind) (n : Node)
    (children : List Node) :
    gather own around ({ n with children := children } : Node)
      = own around n + gatherAll own (n.kind.below around) children := by
  rw [gather_eq, h.children]

/-! ## One merge -/

section Merge

variable (top : Node → M) (inside : Kind → Node → M)

/-- What a node weighs itself, and what its children weigh inside a node of its kind. -/
def weight (n : Node) : M :=
  top n + (n.children.map (inside n.kind)).sum

theorem sum_flatMap_children (f : Node → M) (ns : List Node) :
    ((ns.flatMap children).map f).sum = (ns.map fun n => (n.children.map f).sum).sum := by
  induction ns with
  | nil => rfl
  | cons n ns ih => rw [List.flatMap_cons, List.map_append, List.sum_append, ih, List.map_cons, List.sum_cons]

variable {top} (htop : ∀ n children, top { n with children } = top n)

include htop

/-- A node that takes over others weighs as much more as they weigh inside a node of its kind. -/
theorem weight_adopt (n : Node) (more : List Node) :
    weight top inside (n.adopt more) = weight top inside n + (more.map (inside n.kind)).sum := by
  have hown : top (n.adopt more) = top n := htop n _
  rw [weight, weight, hown, adopt_kind, adopt, List.map_append, List.sum_append, add_assoc]

/-- What a node takes over is what the rules inside have that disappear because of it. -/
theorem weight_taking (scope later : List Node) (n : Node) :
    weight top inside (taking scope later n)
        + ((scope.filter (consumedIn later)).map fun r => (r.children.map (inside r.kind)).sum).sum
      = weight top inside n
        + ((scope.filter (consumedIn (n :: later))).map fun r => (r.children.map (inside r.kind)).sum).sum := by
  unfold taking
  cases hn : n.inheritedSelector? with
  | none => rw [consumedIn_cons_of_none hn]
  | some selector =>
    show weight top inside (if inheritsSelector later selector then n else _) + _ = _
    cases hlater : inheritsSelector later selector with
    | true => rw [if_pos rfl, consumedIn_cons_of_inherits hn hlater]
    | false =>
      -- The rules that disappear have the kind of the node, so their children stay inside the same kind.
      have hsame : ∀ r ∈ scope.filter (fun r => r.nativeSelector? = some selector),
          (r.children.map (inside n.kind)).sum = (r.children.map (inside r.kind)).sum := by
        intro r hr
        have hnative : r.nativeSelector? = some selector := by simpa using (List.mem_filter.1 hr).2
        rw [(inheritedSelector?_eq_some_iff.1 hn).2, (nativeSelector?_eq_some_iff.1 hnative).2]
      have hperm : (scope.filter (consumedIn (n :: later))).Perm _ := filter_consumedIn_cons hn scope
      rw [hlater, if_neg (by simp)] at hperm
      rw [if_neg (by simp), weight_adopt inside htop, (hperm.map _).sum_eq, List.map_append, List.sum_append,
        absorbed, sum_flatMap_children, List.map_congr_left hsame]
      abel

/-- **What a merge leaves and what disappears weigh as much as the scope.** -/
theorem sum_weight_mergeNodes (scope : List Node) :
    ((mergeNodes scope).map (weight top inside)).sum + ((scope.filter (consumedIn scope)).map top).sum
      = (scope.map (weight top inside)).sum := by
  -- Along the scope, the nodes so far have what the rules have that disappear because of them.
  have hprefix : ∀ nodes : List Node,
      (((takeOver scope nodes).filter fun n => !consumedIn scope n).map (weight top inside)).sum
        = ((nodes.filter fun n => !consumedIn scope n).map (weight top inside)).sum
          + ((scope.filter (consumedIn nodes)).map fun r => (r.children.map (inside r.kind)).sum).sum := by
    intro nodes
    induction nodes with
    | nil =>
      have hnothing : scope.filter (consumedIn []) = [] :=
        List.filter_eq_nil_iff.2 fun r _ => by simp [consumedIn_nil]
      simp [takeOver, hnothing]
    | cons n later ih =>
      have htaken := weight_taking inside htop scope later n
      rw [takeOver, List.filter_cons, List.filter_cons, consumedIn_taking]
      cases hgone : consumedIn scope n with
      | false =>
        simp only [Bool.not_false, if_true, List.map_cons, List.sum_cons, ih]
        rw [add_left_comm, htaken]
        abel
      | true =>
        -- A node that disappears is native, so it takes nothing over.
        obtain ⟨selector, hnative, -⟩ := consumedIn_iff.1 hgone
        have hnone : n.inheritedSelector? = none := by
          simp [inheritedSelector?, (nativeSelector?_eq_some_iff.1 hnative).1]
        simpa [consumedIn_cons_of_none hnone] using ih
  -- The scope falls into the nodes that disappear and the others; of the former, only they themselves are lost.
  have hsplit := ((List.filter_append_perm (consumedIn scope) scope).map (weight top inside)).sum_eq
  rw [List.map_append, List.sum_append] at hsplit
  have hgone : ((scope.filter (consumedIn scope)).map (weight top inside)).sum
      = ((scope.filter (consumedIn scope)).map top).sum
        + ((scope.filter (consumedIn scope)).map fun r => (r.children.map (inside r.kind)).sum).sum :=
    List.sum_map_add
  rw [mergeNodes, hprefix scope, ← hsplit, hgone]
  abel

end Merge

/-- What is read off a tree is a weight, so what holds of one merge can be said of it. -/
theorem gather_eq_weight (own : List Kind → Node → M) (around : List Kind) :
    gather own around = weight (own around) fun kind => gather own (kind.below around) := by
  funext n
  rw [gather_eq, weight, gatherAll]

/-- What is read off what a merge leaves and off what disappears adds up to the scope. -/
theorem sum_mergeNodes {own : List Kind → Node → M} (hown : OwnOnly own) (around : List Kind) (scope : List Node) :
    gatherAll own around (mergeNodes scope) + ((scope.filter (consumedIn scope)).map (own around)).sum
      = gatherAll own around scope := by
  rw [gatherAll, gatherAll, gather_eq_weight]
  exact sum_weight_mergeNodes _ (hown.children around) scope

/-! ## A run -/

/-- Markers do not count among the nodes around a node. -/
theorem Kind.below_of_marker {n : Node} (h : n.isMarker = true) (around : List Kind) :
    n.kind.below around = around := by
  obtain ⟨target, hkind⟩ := isMarker_iff.1 h
  rw [hkind, Kind.below]

/-- What is read off the children of a node that disappear from its scope. -/
def consumedBelow (own : List Kind → Node → M) (around : List Kind) (p : Node) : M :=
  ((p.children.filter (consumedIn p.scope)).map (own (p.kind.below around))).sum

/-- Markers never disappear as rules do. -/
theorem consumedIn_marker {n : Node} (h : n.isMarker = true) (scope : List Node) : consumedIn scope n = false := by
  rw [consumedIn, nativeSelector?_of_marker h]

/-- What several nodes leave in a scope disappears from it where the nodes themselves would: what a marker
    hands on stays. -/
theorem map_filter_consumedIn_leaves {α : Type} {f : Node → α}
    (hf : ∀ n children, f { n with children } = f n) (scope cs : List Node) :
    ((cs.flatMap leaves).filter (consumedIn scope)).map f = (cs.filter (consumedIn scope)).map f := by
  rw [filter_leaves (fun _ h => consumedIn_of_inherited h scope) (fun _ h => consumedIn_marker h scope)
    (fun _ _ => rfl), List.map_map]
  exact List.map_congr_left fun n _ => hf n n.merged

section Run

variable {own : List Kind → Node → M} (hown : OwnOnly own)

include hown

/-- To flag nodes as inherited changes nothing that is read off them. -/
theorem gatherAll_flagged (around : List Kind) (ns : List Node) :
    gatherAll own around (ns.map fun n => { n with inherited := true }) = gatherAll own around ns := by
  rw [gatherAll, List.map_map, gatherAll]
  refine congrArg List.sum (List.map_congr_left fun n _ => ?_)
  rw [Function.comp_apply, gather_eq, gather_eq, hown.inherited]

/-- What a node leaves in the scope around it, given the same of its own children. -/
theorem gatherAll_left (around : List Kind) {n : Node}
    (h : gatherAll own (n.kind.below around) n.merged + gather (consumedBelow own) around n
      = gatherAll own (n.kind.below around) n.children) :
    gatherAll own around (n.left n.merged) + gather (consumedBelow own) around n = gather own around n := by
  cases hmarker : n.isMarker with
  | true =>
    rw [Kind.below_of_marker hmarker] at h
    rw [left_of_marker hmarker, gatherAll_flagged hown, h, gather_eq, hown.marker around n hmarker, zero_add,
      Kind.below_of_marker hmarker]
  | false =>
    rw [left_of_not_marker hmarker, gatherAll_cons, gatherAll_nil, add_zero, gather_withChildren hown, add_assoc, h,
      gather_eq own]

/-- **What a run leaves under a node and what disappears there add up to what was there before.** -/
theorem gatherAll_merged (n : Node) : ∀ around : List Kind,
    gatherAll own (n.kind.below around) n.merged + gather (consumedBelow own) around n
      = gatherAll own (n.kind.below around) n.children := by
  induction n using childInduction with
  | step n ih =>
    intro around
    -- What the children leave in the scope is what they had, but for what disappeared inside them.
    have hleaves : gatherAll own (n.kind.below around) n.scope
        + gatherAll (consumedBelow own) (n.kind.below around) n.children
        = gatherAll own (n.kind.below around) n.children := by
      rw [scope_eq_flatMap]
      generalize n.kind.below around = inner
      revert ih
      generalize n.children = cs
      intro ih
      induction cs with
      | nil => simp
      | cons c cs ihcs =>
        have hc := gatherAll_left hown inner (ih c List.mem_cons_self inner)
        have hcs := ihcs fun d hd => ih d (List.mem_cons_of_mem _ hd)
        rw [List.flatMap_cons, gatherAll_append, gatherAll_cons, gatherAll_cons, ← hc, ← hcs, leaves_eq]
        abel
    -- What disappears in the merge are children of the node, since a marker hands on nothing native.
    have hgone : ((n.scope.filter (consumedIn n.scope)).map (own (n.kind.below around))).sum
        = consumedBelow own around n := by
      have hchildren := map_filter_consumedIn_leaves (hown.children (n.kind.below around)) n.scope n.children
      rw [← scope_eq_flatMap] at hchildren
      rw [hchildren, consumedBelow]
    have hmerge := sum_mergeNodes hown (n.kind.below around) n.scope
    rw [hgone] at hmerge
    rw [← hleaves, ← hmerge, gather_eq, merged]
    abel

/-- **What is read off the resolved tree and off the rules that disappear adds up to the tree.** -/
theorem gather_merged (around : List Kind) (n : Node) :
    gather own around ({ n with children := n.merged } : Node) + gather (consumedBelow own) around n
      = gather own around n := by
  rw [gather_withChildren hown, add_assoc, gatherAll_merged hown, gather_eq own]

end Run

/-! ## Counting -/

section Counting

variable {β : Type} (f : List Kind → Node → Option β)

/-- What a node counts for, if it counts for anything. -/
def counting (around : List Kind) (n : Node) : Multiset β :=
  (f around n).elim 0 fun b => {b}

/-- To list something for some of the nodes of a tree is to gather it. -/
theorem coe_filterMap_placed (around : List Kind) (n : Node) :
    (((n.placed around).filterMap fun place => f place.1 place.2 : List β) : Multiset β)
      = gather (counting f) around n := by
  rw [gather]
  induction n.placed around with
  | nil => rfl
  | cons place places ih =>
    rw [List.filterMap_cons, List.map_cons, List.sum_cons, ← ih, counting]
    cases f place.1 place.2 <;> simp

/-- What is counted of nodes may be gathered if it does not look at children or flags and passes over markers. -/
theorem ownOnly_counting {f : List Kind → Node → Option β}
    (hchildren : ∀ around n children, f around { n with children } = f around n)
    (hinherited : ∀ around n flag, f around { n with inherited := flag } = f around n)
    (hmarker : ∀ around n, n.isMarker = true → f around n = none) : OwnOnly (counting f) where
  children around n children := by rw [counting, hchildren, counting]
  inherited around n flag := by rw [counting, hinherited, counting]
  marker around n h := by rw [counting, hmarker around n h]; rfl

end Counting

/-! ## Nothing is lost -/

/-- A node that is neither rule nor marker, with the kinds around it. -/
def otherAt? (around : List Kind) (n : Node) : Option (List Kind × Kind × Location) :=
  if n.isRule || n.isMarker then none else some (around, n.kind, n.location)

/-- The path of a rule: the kinds around it, and its own. -/
def rulePath? (around : List Kind) (n : Node) : Option (List Kind) :=
  if n.isRule then some (around ++ [n.kind]) else none

/-- The nodes of a tree that are neither rules nor markers: the rules and other nodes around each from the root
    inwards, what it is, and where it was declared. -/
def others (root : Node) : List (List Kind × Kind × Location) :=
  (root.placed []).filterMap fun place => otherAt? place.1 place.2

/-- The paths of the rules of a tree. -/
def rulePaths (root : Node) : List (List Kind) :=
  (root.placed []).filterMap fun place => rulePath? place.1 place.2

theorem isRule_of_marker {n : Node} (h : n.isMarker = true) : n.isRule = false := by
  obtain ⟨target, hkind⟩ := isMarker_iff.1 h
  simp [isRule, hkind]

theorem ownOnly_otherAt? : OwnOnly (counting otherAt?) :=
  ownOnly_counting (fun _ _ _ => rfl) (fun _ _ _ => rfl) fun _ n h => by simp [otherAt?, h]

theorem ownOnly_rulePath? : OwnOnly (counting rulePath?) :=
  ownOnly_counting (fun _ _ _ => rfl) (fun _ _ _ => rfl) fun _ n h => by
    simp [rulePath?, isRule_of_marker h]

/-- Only rules disappear. -/
theorem consumedIn_isRule {scope : List Node} {n : Node} (h : consumedIn scope n = true) : n.isRule = true := by
  obtain ⟨selector, hnative, -⟩ := consumedIn_iff.1 h
  exact isRule_iff.2 ⟨_, (nativeSelector?_eq_some_iff.1 hnative).2⟩

/-- No node that is neither rule nor marker disappears. -/
theorem gather_consumedBelow_otherAt? (around : List Kind) (n : Node) :
    gather (consumedBelow (counting otherAt?)) around n = 0 := by
  refine List.sum_eq_zero fun x hx => ?_
  obtain ⟨place, -, rfl⟩ := List.mem_map.1 hx
  refine List.sum_eq_zero fun y hy => ?_
  obtain ⟨r, hr, rfl⟩ := List.mem_map.1 hy
  simp [counting, otherAt?, consumedIn_isRule (List.mem_filter.1 hr).2]

/-- The path of a rule that disappears is still there: an inherited rule of its selector has it. -/
theorem rulePath?_mem_mergeNodes {scope : List Node} {r : Node} {around path : List Kind}
    (hr : consumedIn scope r = true) (hpath : path ∈ counting rulePath? around r) :
    path ∈ gatherAll (counting rulePath?) around (mergeNodes scope) := by
  obtain ⟨x, -, -, hsame, more, hx⟩ := exists_adopt_of_consumedIn hr
  have hrule : (x.adopt more).isRule = r.isRule := by rw [isRule, isRule, adopt_kind, hsame]
  refine Multiset.mem_sum_map.2 ⟨_, hx, ?_⟩
  rw [gather_eq, Multiset.mem_add]
  exact .inl (by simpa [counting, rulePath?, hrule, hsame] using hpath)

/-- The paths of the rules that disappear under a node are still there after the run. -/
theorem rulePath?_mem_merged (n : Node) : ∀ {around path : List Kind},
    path ∈ gather (consumedBelow (counting rulePath?)) around n →
      path ∈ gatherAll (counting rulePath?) (n.kind.below around) n.merged := by
  induction n using childInduction with
  | step n ih =>
    intro around path hpath
    -- Whether a path is below a node that is still in the scope or of one that has disappeared, it stays.
    have hscope : path ∈ gatherAll (counting rulePath?) (n.kind.below around) n.scope →
        path ∈ gatherAll (counting rulePath?) (n.kind.below around) n.merged := by
      intro hpath
      rw [← sum_mergeNodes ownOnly_rulePath?, Multiset.mem_add] at hpath
      refine hpath.elim id fun hgone => ?_
      obtain ⟨r, hr, hpath⟩ := Multiset.mem_sum_map.1 hgone
      exact rulePath?_mem_mergeNodes (List.mem_filter.1 hr).2 hpath
    rw [gather_eq, Multiset.mem_add] at hpath
    rcases hpath with hown | hbelow
    · obtain ⟨r, hr, hpath⟩ := Multiset.mem_sum_map.1 hown
      exact rulePath?_mem_mergeNodes (List.mem_filter.1 hr).2 hpath
    · obtain ⟨c, hc, hpath⟩ := Multiset.mem_sum_map.1 hbelow
      have hleft : path ∈ gatherAll (counting rulePath?) (n.kind.below around) (c.left c.merged) := by
        have hc := ih c hc hpath
        cases hmarker : c.isMarker with
        | true => rwa [Kind.below_of_marker hmarker, ← gatherAll_flagged ownOnly_rulePath?,
            ← left_of_marker hmarker] at hc
        | false =>
          rw [left_of_not_marker hmarker, gatherAll_cons, gather_eq]
          exact Multiset.mem_add.2 (.inl (Multiset.mem_add.2 (.inr hc)))
      obtain ⟨x, hx, hpath⟩ := Multiset.mem_sum_map.1 hleft
      exact hscope (Multiset.mem_sum_map.2 ⟨x, mem_scope.2 ⟨c, hc, hx⟩, hpath⟩)

/-- **A run loses no declaration and moves none to another place.** -/
theorem resolve_conserves {root root' : Node} {s s' : Stats} (h : root.resolve.run.run s = (.ok root', s')) :
    (root'.others : Multiset (List Kind × Kind × Location)) = root.others ∧
      ∀ path, path ∈ root'.rulePaths ↔ path ∈ root.rulePaths := by
  obtain ⟨-, -, rfl, -⟩ := resolve_ok h
  constructor
  · have hmerged := gather_merged ownOnly_otherAt? [] root
    rw [gather_consumedBelow_otherAt?, add_zero] at hmerged
    rw [others, others, coe_filterMap_placed, coe_filterMap_placed, hmerged]
  · intro path
    rw [← Multiset.mem_coe, ← Multiset.mem_coe (l := root.rulePaths), rulePaths, rulePaths, coe_filterMap_placed,
      coe_filterMap_placed, ← gather_merged ownOnly_rulePath? [] root, Multiset.mem_add]
    refine ⟨.inl, fun hpath => hpath.elim id fun hgone => ?_⟩
    rw [gather_eq, Multiset.mem_add]
    exact .inr (rulePath?_mem_merged root hgone)

/-- A page that declares a rule which it also inherits. -/
def inheritingPage : Node :=
  { root "page.css" with
    children := [
      { rule ".a" with children := [declaration "margin: 0"] },
      { marker "base.css" with children := [{ rule ".a" with children := [declaration "color: red"] }] }] }

theorem resolve_conserves_inheritingPage :
    ∃ page s, inheritingPage.resolve.run.run {} = (.ok page, s) ∧ s.rulesMerged = 1 ∧
      (page.others : Multiset (List Kind × Kind × Location)) = inheritingPage.others ∧
        ∀ path, path ∈ page.rulePaths ↔ path ∈ inheritingPage.rulePaths := by
  have hrun : inheritingPage.resolve.run.run {} =
      (.ok { root "page.css" with
        children := [
          { rule ".a" with
            children := [declaration "color: red", declaration "margin: 0"]
            inherited := true }] },
        { scopes := 5, markersSpliced := 1, nodesSpliced := 1, rulesMerged := 1 }) := by
    rfl
  exact ⟨_, _, hrun, rfl, resolve_conserves hrun⟩

end Node

end StyleTree
