import StyleTree.Proofs.Inherit.Conservation

/-!
# `Proofs.Inherit.Consumption` — which rules disappear

A rule inside nested markers is native in one scope, inherited in the next, and may take over other rules in
each. Still it disappears in the first scope or never, and whether it does can be read off the tree before the
run: an inherited rule of its selector has to be effective under its own parent (`Consumed`).

A run finds the same by looking into scopes; that the two agree is `consumed_iff_consumedIn`. By `resolve_consumes` the
rules that are not consumed are what the rules of the resolved tree are, and the count of a run grows by the number of
the others.
-/

namespace StyleTree

namespace Node

/-! ## The criterion -/

/-- A rule under the parent `p` disappears: it is not flagged as inherited, and another rule of its selector is
    effective under `p` that is either a child of `p` with the flag or reached from `p` through a marker. -/
def Consumed (p r : Node) : Prop :=
  r.inherited = false ∧ ∃ selector, r.selector? = some selector ∧
    ∃ q, Effective p q ∧ q.selector? = some selector ∧ ((q ∈ p.children ∧ q.inherited = true) ∨ Spliced p q)

/-- **Which rules of a scope disappear is decided by the tree before the run.** -/
theorem consumed_iff_consumedIn {p r : Node} : Consumed p r ↔ consumedIn p.scope r = true := by
  simp only [Consumed, consumedIn_iff, nativeSelector?_eq_some_iff, selector?_eq_some_iff, inheritsSelector_iff,
    exists_inherited_rule_scope]
  constructor
  · rintro ⟨hflag, selector, hr, q, -, hq, hsource⟩
    exact ⟨selector, ⟨hflag, hr⟩, q, hsource, hq⟩
  · rintro ⟨selector, ⟨hflag, hr⟩, q, hsource, hq⟩
    exact ⟨hflag, selector, hr, q, effective_iff.2 (hsource.imp_left And.left), hq, hsource⟩

instance (p r : Node) : Decidable (Consumed p r) :=
  decidable_of_iff (consumedIn p.scope r = true) consumed_iff_consumedIn.symm

/-! ## The rules of a tree -/

/-- The rules of a tree. -/
def rules (root : Node) : List Node :=
  root.preorder.filter isRule

/-- The rules of a tree that disappear, parent by parent. -/
def consumedRules (root : Node) : List Node :=
  root.preorder.flatMap fun p => p.children.filter fun r => r.isRule && decide (Consumed p r)

/-- The rules of a tree that do not disappear: the root, if it is one, and then parent by parent. -/
def remainingRules (root : Node) : List Node :=
  [root].filter isRule ++
    root.preorder.flatMap fun p => p.children.filter fun r => r.isRule && !decide (Consumed p r)

/-- What a rule is known by: its selector and where it was declared. -/
def signature (r : Node) : Option String × Location :=
  (r.selector?, r.location)

/-- The rules that disappear and those that do not are all rules. -/
theorem rules_perm (root : Node) : root.rules.Perm (root.remainingRules ++ root.consumedRules) := by
  have hsplit : ∀ p : Node, (p.children.filter isRule).Perm
      ((p.children.filter fun r => r.isRule && !decide (Consumed p r)) ++
        p.children.filter fun r => r.isRule && decide (Consumed p r)) := by
    intro p
    have hperm := List.filter_append_perm (fun r => !decide (Consumed p r)) (p.children.filter isRule)
    simpa [List.filter_filter, Bool.and_comm] using hperm.symm
  have hbelow : ((root.preorder.flatMap children).filter isRule).Perm
      ((root.preorder.flatMap fun p => p.children.filter fun r => r.isRule && !decide (Consumed p r)) ++
        root.consumedRules) := by
    rw [List.filter_flatMap]
    exact (List.Perm.flatMap_left _ fun p _ => hsplit p).trans (List.flatMap_append_perm _ _ _).symm
  have hrules := (preorder_perm root).filter isRule
  rw [← List.singleton_append, List.filter_append] at hrules
  rw [remainingRules, List.append_assoc]
  exact hrules.trans (hbelow.append_left _)

/-- The children of a node that are consumed. -/
def consumedChildren (p : Node) : List Node :=
  p.children.filter fun r => r.isRule && decide (Consumed p r)

theorem consumedRules_eq_flatMap (root : Node) : root.consumedRules = root.preorder.flatMap consumedChildren := rfl

/-- In terms of scopes, the rules that disappear are those that merges take. -/
theorem consumedChildren_eq (p : Node) : p.consumedChildren = p.children.filter (consumedIn p.scope) := by
  refine List.filter_congr fun r _ => ?_
  cases hgone : consumedIn p.scope r with
  | true => simp [consumed_iff_consumedIn, hgone, consumedIn_isRule hgone]
  | false => simp [consumed_iff_consumedIn, hgone]

theorem consumedRules_eq (root : Node) :
    root.consumedRules = root.preorder.flatMap fun p => p.children.filter (consumedIn p.scope) :=
  List.flatMap_congr fun p _ => consumedChildren_eq p

/-! ## The outcome -/

theorem map_snd_placed (n : Node) : ∀ around : List Kind, (n.placed around).map Prod.snd = n.preorder := by
  induction n using childInduction with
  | step n ih =>
    intro around
    rw [placed_eq, preorder_eq, placedAll_eq_flatMap, preorderAll_eq_flatMap, List.map_cons, List.map_flatMap]
    congr 1
    exact List.flatMap_congr fun c hc => ih c hc _

/-- As many nodes of a scope disappear as children of the node whose scope it is. -/
theorem countP_consumedIn_scope (n : Node) :
    n.scope.countP (consumedIn n.scope) = (n.children.filter (consumedIn n.scope)).length := by
  have hleaves := map_filter_consumedIn_leaves (f := fun _ => ()) (fun _ _ => rfl) n.scope n.children
  rw [← scope_eq_flatMap] at hleaves
  simpa [List.countP_eq_length_filter] using congrArg List.length hleaves

theorem settling_rulesMerged (n : Node) (merged : List Node) : (n.settling merged).rulesMerged = 0 := by
  unfold settling
  split <;> rfl

theorem rulesMerged_tolls (ns : List Node) :
    (tolls ns).rulesMerged = (ns.flatMap fun p => p.children.filter (consumedIn p.scope)).length := by
  induction ns with
  | nil => rfl
  | cons n ns ih =>
    rw [tolls_cons, Stats.add_rulesMerged, ih, toll, Stats.add_rulesMerged, settling_rulesMerged,
      List.flatMap_cons, List.length_append, ← countP_consumedIn_scope]
    rfl

/-- What is counted for merges under a node is the number of rules that disappear there. -/
theorem rulesMerged_spent (n : Node) :
    n.spent.rulesMerged = (n.preorder.flatMap fun p => p.children.filter (consumedIn p.scope)).length := by
  have hspent := congrArg Stats.rulesMerged (tolls_postorder n)
  rw [Stats.add_rulesMerged, settling_rulesMerged, Nat.add_zero, rulesMerged_tolls] at hspent
  rw [← hspent]
  exact ((map_fst_postorder_perm n).flatMap_right _).length_eq

/-- What a rule counts for. -/
def ruleSignature? (_ : List Kind) (n : Node) : Option (Option String × Location) :=
  if n.isRule then some n.signature else none

theorem ownOnly_ruleSignature? : OwnOnly (counting ruleSignature?) :=
  ownOnly_counting (fun _ _ _ => rfl) (fun _ _ _ => rfl) fun _ n h => by
    simp [ruleSignature?, isRule_of_marker h]

theorem gather_coe {β : Type} {own : List Kind → Node → Multiset β} {f : Node → List β}
    (h : ∀ around n, own around n = f n) (around : List Kind) (root : Node) :
    gather own around root = (root.preorder.flatMap f : List β) := by
  rw [gather, ← map_snd_placed root around]
  induction root.placed around with
  | nil => rfl
  | cons place places ih =>
    rw [List.map_cons, List.sum_cons, ih, h, List.map_cons, List.flatMap_cons]
    rfl

/-- The signatures of the rules of a tree. -/
theorem gather_ruleSignature? (root : Node) :
    gather (counting ruleSignature?) [] root = (root.rules.map signature : List (Option String × Location)) := by
  have hown : ∀ around n, counting ruleSignature? around n = (([n].filter isRule).map signature : List _) := by
    intro around n
    cases h : n.isRule <;> simp [counting, ruleSignature?, h]
  rw [gather_coe hown, ← List.map_flatMap, ← List.filter_flatMap, List.flatMap_singleton', rules]

/-- The signatures of the rules that disappear from the scopes of a tree. -/
theorem gather_consumedBelow_ruleSignature? (root : Node) :
    gather (consumedBelow (counting ruleSignature?)) [] root
      = (root.consumedRules.map signature : List (Option String × Location)) := by
  have hscope : ∀ around p, consumedBelow (counting ruleSignature?) around p
      = ((p.children.filter (consumedIn p.scope)).map signature : List (Option String × Location)) := by
    intro around p
    have hrules : ∀ r ∈ p.children.filter (consumedIn p.scope), r.isRule = true :=
      fun r hr => consumedIn_isRule (List.mem_filter.1 hr).2
    rw [consumedBelow]
    revert hrules
    generalize p.children.filter (consumedIn p.scope) = rs
    intro hrules
    induction rs with
    | nil => rfl
    | cons r rs ih =>
      rw [List.map_cons, List.sum_cons, ih fun d hd => hrules d (List.mem_cons_of_mem _ hd)]
      simp [counting, ruleSignature?, hrules r List.mem_cons_self]
  rw [gather_coe hscope, ← List.map_flatMap, ← consumedRules_eq]

/-- The rules of the resolved tree and those that disappeared are the rules of the tree. -/
theorem rules_merged (root : Node) :
    ((({ root with children := root.merged } : Node).rules ++ root.consumedRules).map signature).Perm
      (root.rules.map signature) := by
  rw [← Multiset.coe_eq_coe, List.map_append, ← Multiset.coe_add, ← gather_ruleSignature?,
    ← gather_ruleSignature?, ← gather_consumedBelow_ruleSignature?, gather_merged ownOnly_ruleSignature?]

/-- **A run leaves the rules that are not consumed.** Their selectors and places stay, the number of the others
    is counted, and a rule that can be told from all others is gone if and only if it is consumed. -/
theorem resolve_consumes {root root' : Node} {s s' : Stats} (h : root.resolve.run.run s = (.ok root', s')) :
    (root'.rules.map signature : Multiset (Option String × Location)) = root.remainingRules.map signature ∧
      s'.rulesMerged = s.rulesMerged + root.consumedRules.length ∧
      ∀ p ∈ root.preorder, ∀ r ∈ p.children, r.isRule = true →
        (root.rules.map signature).count r.signature = 1 →
          (r.signature ∉ root'.rules.map signature ↔ Consumed p r) := by
  obtain ⟨-, -, rfl, rfl⟩ := resolve_ok h
  have hsplit := (rules_perm root).map signature
  have hremaining : (({ root with children := root.merged } : Node).rules.map signature).Perm
      (root.remainingRules.map signature) := by
    have hall := (rules_merged root).trans hsplit
    rw [List.map_append, List.map_append] at hall
    exact (List.perm_append_right_iff _).1 hall
  refine ⟨Multiset.coe_eq_coe.2 hremaining, ?_, ?_⟩
  · rw [Stats.add_rulesMerged, Stats.add_rulesMerged, rulesMerged_spent, ← consumedRules_eq]
    rfl
  · intro p hp r hr hrule honce
    rw [hremaining.mem_iff]
    rw [hsplit.count_eq, List.map_append, List.count_append] at honce
    constructor
    · intro hgone
      by_contra hstays
      have hmem : r ∈ root.remainingRules :=
        List.mem_append.2 (.inr (List.mem_flatMap.2 ⟨p, hp, List.mem_filter.2 ⟨hr, by simp [hrule, hstays]⟩⟩))
      exact hgone (List.mem_map_of_mem hmem)
    · -- Its signature would be among the rules twice.
      intro hconsumed hstays
      have hmem : r ∈ root.consumedRules :=
        List.mem_flatMap.2 ⟨p, hp, List.mem_filter.2 ⟨hr, by simp [hrule, hconsumed]⟩⟩
      have hgone := List.count_pos_iff.2 (List.mem_map_of_mem hmem (f := signature))
      have hleft := List.count_pos_iff.2 hstays
      omega

/-- A page that declares a rule which it inherits twice, once from inside the other inherited block. -/
def nestedPage : Node :=
  { root "page.css" with
    children := [
      { rule ".a" with location := ⟨"page.css", 2⟩ },
      { marker "base.css" with
        children := [
          { rule ".a" with location := ⟨"base.css", 1⟩ },
          { marker "reset.css" with children := [{ rule ".a" with location := ⟨"reset.css", 1⟩ }] }] }] }

theorem resolve_consumes_nestedPage :
    ∃ page s, nestedPage.resolve.run.run {} = (.ok page, s) ∧ s.rulesMerged = 2 ∧
      (page.rules.map signature : Multiset (Option String × Location)) = nestedPage.remainingRules.map signature ∧
        s.rulesMerged = 0 + nestedPage.consumedRules.length ∧
          ∀ p ∈ nestedPage.preorder, ∀ r ∈ p.children, r.isRule = true →
            (nestedPage.rules.map signature).count r.signature = 1 →
              (r.signature ∉ page.rules.map signature ↔ Consumed p r) := by
  have hrun : nestedPage.resolve.run.run {} =
      (.ok { root "page.css" with
        children := [{ rule ".a" with inherited := true, location := ⟨"reset.css", 1⟩ }] },
        { scopes := 4, markersSpliced := 2, nodesSpliced := 2, rulesMerged := 2 }) := by
    rfl
  exact ⟨_, _, hrun, rfl, resolve_consumes hrun⟩

end Node

end StyleTree
