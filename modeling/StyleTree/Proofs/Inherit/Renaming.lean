import StyleTree.Proofs.Inherit.Pass

/-!
# `Proofs.Inherit.Renaming` — a run looks at no name

A run moves nodes and merges rules. All it asks of a tree is which nodes are rules and markers, which are flagged,
which rules have a selector, and which selectors are equal. So if everything in a tree is called by another name
(`Renaming`), and different selectors by different ones, the run does the same with the other names: it takes the same
branches, counts the same, and fails at the same node.

The run on the renamed tree is compared with the run on the tree step by step: each step has the outcome that the other
one has, under the other names (`outcomeUnder`). For a merge this goes through the description without an order, of
which every part is renamed with the scope. The induction on the tree is `mergedChildren_rename`, the outcome
`resolve_rename`.
-/

namespace StyleTree

/-! ## Other names -/

/-- Other names for everything that a tree tells by a name. -/
structure Renaming where
  /-- What a selector is called. -/
  selector : String → String
  /-- Where a node is said to stand. -/
  location : Location → Location
  /-- The tag and the text of a node that is neither rule nor marker. -/
  other : String × Option String → String × Option String
  /-- The file that a marker is said to inherit from. -/
  target : String → String

/-- A kind under other names. A rule that has no selector gets none. -/
def Node.Kind.rename (ρ : Renaming) : Node.Kind → Node.Kind
  | .rule selector => .rule (selector.map ρ.selector)
  | .inherit target => .inherit (ρ.target target)
  | .other tag text => .other (ρ.other (tag, text)).1 (ρ.other (tag, text)).2

/-- A failure under other names. A marker at the root is named by its target; nothing else that can go wrong
    in a run names anything. -/
def Failure.rename (ρ : Renaming) (failure : Failure) : Failure where
  cause :=
    match failure.cause with
    | .markerAtRoot target => .markerAtRoot (ρ.target target)
    | cause => cause
  backtrace := failure.backtrace.map ρ.location

/-- A failure on its way out of a tree passes through the same nodes under any names. -/
theorem Failure.rename_within (ρ : Renaming) (failure : Failure) (location : Location) :
    (failure.within location).rename ρ = (failure.rename ρ).within (ρ.location location) := by
  simp [Failure.rename, Failure.within]

namespace Node

mutual

/-- A tree under other names. -/
def rename (ρ : Renaming) : Node → Node
  | ⟨kind, children, inherited, location⟩ =>
    ⟨kind.rename ρ, renameAll ρ children, inherited, ρ.location location⟩

/-- Several trees under other names. -/
def renameAll (ρ : Renaming) : List Node → List Node
  | [] => []
  | n :: ns => n.rename ρ :: renameAll ρ ns

end

section Rename

variable (ρ : Renaming)

theorem renameAll_eq_map (ns : List Node) : renameAll ρ ns = ns.map (rename ρ) := by
  induction ns with
  | nil => rfl
  | cons n ns ih => rw [renameAll, ih, List.map_cons]

@[simp] theorem rename_kind (n : Node) : (n.rename ρ).kind = n.kind.rename ρ := by
  cases n
  rw [rename]

@[simp] theorem rename_inherited (n : Node) : (n.rename ρ).inherited = n.inherited := by
  cases n
  rw [rename]

@[simp] theorem rename_children (n : Node) : (n.rename ρ).children = n.children.map (rename ρ) := by
  cases n
  rw [rename, renameAll_eq_map]

@[simp] theorem rename_location (n : Node) : (n.rename ρ).location = ρ.location n.location := by
  cases n
  rw [rename]

theorem rename_withChildren (n : Node) (children : List Node) :
    ({ n with children := children } : Node).rename ρ = { n.rename ρ with children := children.map (rename ρ) } := by
  cases n
  rw [rename, rename, renameAll_eq_map]

theorem rename_inherit (n : Node) (flag : Bool) :
    ({ n with inherited := flag } : Node).rename ρ = { n.rename ρ with inherited := flag } := by
  cases n
  rw [rename, rename]

/-- Whoever takes over nodes takes them over under their other names as well. -/
theorem rename_adopt (n : Node) (more : List Node) :
    (n.adopt more).rename ρ = (n.rename ρ).adopt (more.map (rename ρ)) := by
  rw [adopt, rename_withChildren, List.map_append, adopt, rename_children]

@[simp] theorem rename_isRule (n : Node) : (n.rename ρ).isRule = n.isRule := by
  unfold isRule
  rw [rename_kind]
  cases n.kind <;> rfl

@[simp] theorem rename_isMarker (n : Node) : (n.rename ρ).isMarker = n.isMarker := by
  unfold isMarker
  rw [rename_kind]
  cases n.kind <;> rfl

@[simp] theorem rename_isInheritedRule (n : Node) : (n.rename ρ).isInheritedRule = n.isInheritedRule := by
  simp [isInheritedRule]

/-- Other names neither give a rule a selector nor take it away. -/
@[simp] theorem rename_isUnresolvedRule (n : Node) : (n.rename ρ).isUnresolvedRule = n.isUnresolvedRule := by
  rw [Bool.eq_iff_iff, isUnresolvedRule_iff, isUnresolvedRule_iff, rename_kind]
  rcases n.kind with (_ | selector) | target | ⟨tag, text⟩ <;> simp [Kind.rename]

/-- No node gets a selector that had none. -/
@[simp] theorem rename_selector? (n : Node) : (n.rename ρ).selector? = n.selector?.map ρ.selector := by
  unfold selector?
  rw [rename_kind]
  cases n.kind <;> rfl

@[simp] theorem rename_nativeSelector? (n : Node) :
    (n.rename ρ).nativeSelector? = n.nativeSelector?.map ρ.selector := by
  unfold nativeSelector?
  rw [rename_inherited, rename_selector?]
  cases n.inherited <;> rfl

@[simp] theorem rename_inheritedSelector? (n : Node) :
    (n.rename ρ).inheritedSelector? = n.inheritedSelector?.map ρ.selector := by
  unfold inheritedSelector?
  rw [rename_inherited, rename_selector?]
  cases n.inherited <;> rfl

end Rename

end Node

/-! ## One merge

Selectors are only ever compared with each other, and different ones still are different under their other names. -/

section Merge

open Node

variable {ρ : Renaming}

/-- Whether a scope can be merged hangs on which rules have a selector, and not on what any selector is called. So
    here different selectors may have one name. -/
theorem lacksSelector_rename (ρ : Renaming) (scope : List Node) :
    lacksSelector (scope.map (rename ρ)) = lacksSelector scope := by
  simp [lacksSelector, Function.comp_def]

variable (hρ : Function.Injective ρ.selector)

include hρ

/-- Two selectors are equal under their other names if they are equal. All that is used of different names is this. -/
theorem map_selector_eq_some_iff {selector? : Option String} {selector : String} :
    selector?.map ρ.selector = some (ρ.selector selector) ↔ selector? = some selector := by
  rw [← Option.map_some]
  exact (Option.map_injective hρ).eq_iff

/-- A rule of the renamed scope is replaced under the other name of its selector. -/
theorem inheritsSelector_rename (nodes : List Node) (selector : String) :
    inheritsSelector (nodes.map (rename ρ)) (ρ.selector selector) = inheritsSelector nodes selector := by
  simp [inheritsSelector, Function.comp_def, map_selector_eq_some_iff hρ]

/-- A node disappears from the renamed scope if it disappears from the scope. -/
theorem consumedIn_rename (scope : List Node) (n : Node) :
    consumedIn (scope.map (rename ρ)) (n.rename ρ) = consumedIn scope n := by
  unfold consumedIn
  rw [rename_nativeSelector?]
  cases n.nativeSelector? with
  | none => rfl
  | some selector => exact inheritsSelector_rename hρ scope selector

/-- As many nodes disappear from the renamed scope as from the scope. -/
theorem countP_consumedIn_rename (scope : List Node) :
    (scope.map (rename ρ)).countP (consumedIn (scope.map (rename ρ))) = scope.countP (consumedIn scope) := by
  rw [List.countP_map]
  apply List.countP_congr
  intro n _
  rw [Function.comp_apply, consumedIn_rename hρ]

/-- The children that a selector brings together are brought together under its other name. -/
theorem absorbed_rename (scope : List Node) (selector : String) :
    absorbed (scope.map (rename ρ)) (ρ.selector selector) = (absorbed scope selector).map (rename ρ) := by
  have hfilter : (scope.map (rename ρ)).filter (fun n => n.nativeSelector? = some (ρ.selector selector))
      = (scope.filter fun n => n.nativeSelector? = some selector).map (rename ρ) := by
    simp [List.filter_map, Function.comp_def, map_selector_eq_some_iff hρ]
  rw [absorbed, hfilter, absorbed, List.flatMap_map, List.map_flatMap]
  simp

/-- An inherited rule takes over the same children under their other names, unless a later one of its selector takes
    them in either scope. -/
theorem taking_rename (scope later : List Node) (n : Node) :
    taking (scope.map (rename ρ)) (later.map (rename ρ)) (n.rename ρ) = (taking scope later n).rename ρ := by
  unfold taking
  rw [rename_inheritedSelector?]
  cases n.inheritedSelector? with
  | none => rfl
  | some selector =>
    simp only [Option.map_some]
    rw [inheritsSelector_rename hρ, absorbed_rename hρ]
    cases inheritsSelector later selector with
    | true => rfl
    | false => exact (rename_adopt ρ n _).symm

theorem takeOver_rename (scope nodes : List Node) :
    takeOver (scope.map (rename ρ)) (nodes.map (rename ρ)) = (takeOver scope nodes).map (rename ρ) := by
  induction nodes with
  | nil => rfl
  | cons n later ih => rw [List.map_cons, takeOver, takeOver, taking_rename hρ, ih, List.map_cons]

/-- What is left of the renamed scope is what is left of the scope, renamed. -/
theorem mergeNodes_rename (scope : List Node) :
    mergeNodes (scope.map (rename ρ)) = (mergeNodes scope).map (rename ρ) := by
  rw [mergeNodes, takeOver_rename hρ, List.filter_map, mergeNodes]
  congr 1
  apply List.filter_congr
  intro n _
  rw [Function.comp_apply, consumedIn_rename hρ]

end Merge

/-! ## Side by side -/

/-- An outcome under other names: the answer is renamed in the given way, and the counts are the same. -/
def outcomeUnder {α : Type} (ρ : Renaming) (onAnswer : α → α) :
    Except Failure α × Stats → Except Failure α × Stats
  | (.ok answer, s) => (.ok (onAnswer answer), s)
  | (.error failure, s) => (.error (failure.rename ρ), s)

namespace Node

open ResolveM

/-- What a node leaves in the scope around it, a marker its whole scope and any other node itself, does not depend on
    names. -/
theorem left_rename (ρ : Renaming) (n : Node) (merged : List Node) :
    (n.rename ρ).left (merged.map (rename ρ)) = (n.left merged).map (rename ρ) := by
  cases h : n.isMarker with
  | true =>
    have hrename : (n.rename ρ).isMarker = true := by rw [rename_isMarker, h]
    rw [left_of_marker h, left_of_marker hrename, List.map_map, List.map_map]
    apply List.map_congr_left
    intro m _
    exact (rename_inherit ρ m true).symm
  | false =>
    have hrename : (n.rename ρ).isMarker = false := by rw [rename_isMarker, h]
    rw [left_of_not_marker h, left_of_not_marker hrename, List.map_singleton, rename_withChildren]

/-- A node is counted by what kind of node it is, and not by its name. -/
theorem settling_rename (ρ : Renaming) (n : Node) (merged : List Node) :
    (n.rename ρ).settling (merged.map (rename ρ)) = n.settling merged := by
  unfold settling
  rw [rename_kind]
  cases n.kind <;> simp [Kind.rename]

/-- A renamed node that settles leaves the same in the scope around it, renamed, and counts the same. -/
theorem run_settle_rename (ρ : Renaming) (n : Node) (merged : List Node) (s : Stats) :
    ((n.rename ρ).settle (merged.map (rename ρ))).run.run s
      = outcomeUnder ρ (List.map (rename ρ)) ((n.settle merged).run.run s) := by
  rw [run_settle, run_settle, left_rename, settling_rename]
  rfl

/-- A renamed scope is merged, or cannot be merged, as the scope is, and counts the same. -/
theorem run_mergeScope_rename {ρ : Renaming} (hρ : Function.Injective ρ.selector) (scope : List Node) (s : Stats) :
    (mergeScope (scope.map (rename ρ))).run.run s
      = outcomeUnder ρ (List.map (rename ρ)) ((mergeScope scope).run.run s) := by
  rw [run_mergeScope, run_mergeScope, lacksSelector_rename, mergeNodes_rename hρ, countP_consumedIn_rename hρ]
  cases lacksSelector scope <;> rfl

/-! ## The run -/

mutual

/-- **The scope of a renamed node is the scope of the node, renamed**, and if that one cannot be completed, neither
    can this one. -/
theorem mergedChildren_rename {ρ : Renaming} (hρ : Function.Injective ρ.selector) : ∀ (n : Node) (s : Stats),
    (n.rename ρ).mergedChildren.run.run s = outcomeUnder ρ (List.map (rename ρ)) (n.mergedChildren.run.run s)
  | ⟨kind, children, inherited, location⟩, s => by
    rw [rename, mergedChildren, mergedChildren, run_within, run_within, run_bind, run_bind,
      scopeOf_rename hρ children s]
    rcases (scopeOf children).run.run s with ⟨failure | scope, s'⟩
    · -- The children do not fill the scope, and the failure passes through the node.
      simp only [outcomeUnder]
      rw [Failure.rename_within]
    · simp only [outcomeUnder]
      rw [run_mergeScope_rename hρ scope s']
      rcases (mergeScope scope).run.run s' with ⟨failure | merged, s''⟩
      · simp only [outcomeUnder]
        rw [Failure.rename_within]
      · rfl

/-- What several renamed nodes leave is what the nodes leave, renamed, with the same counts; or the first failure
    among them. -/
theorem scopeOf_rename {ρ : Renaming} (hρ : Function.Injective ρ.selector) : ∀ (ns : List Node) (s : Stats),
    (scopeOf (renameAll ρ ns)).run.run s = outcomeUnder ρ (List.map (rename ρ)) ((scopeOf ns).run.run s)
  | [], s => rfl
  | n :: ns, s => by
    rw [renameAll, scopeOf, scopeOf, run_bind, run_bind, mergedChildren_rename hρ n s]
    rcases n.mergedChildren.run.run s with ⟨failure | merged, s'⟩
    · rfl
    · simp only [outcomeUnder, run_bind]
      rw [run_settle_rename]
      simp only [run_settle, outcomeUnder]
      rw [scopeOf_rename hρ ns _]
      rcases (scopeOf ns).run.run (s' + n.settling merged) with ⟨failure | scope, s''⟩
      · rfl
      · simp only [outcomeUnder, run_pure, List.map_append]

end

/-- The outcome of a run on a renamed tree is the outcome of the run on the tree, renamed as a whole. -/
theorem run_resolve_rename {ρ : Renaming} (hρ : Function.Injective ρ.selector) (root : Node) (s : Stats) :
    (root.rename ρ).resolve.run.run s = outcomeUnder ρ (rename ρ) (root.resolve.run.run s) := by
  cases h : root.isMarker with
  | true =>
    obtain ⟨target, hkind⟩ := isMarker_iff.1 h
    have hrename : (root.rename ρ).kind = .inherit (ρ.target target) := by
      rw [rename_kind, hkind, Kind.rename]
    rw [resolve, hrename, resolve, hkind, rename_location]
    rfl
  | false =>
    have hrename : (root.rename ρ).isMarker = false := by rw [rename_isMarker, h]
    rw [resolve_of_not_marker h, resolve_of_not_marker hrename, run_bind, run_bind, mergedChildren_rename hρ root s]
    rcases root.mergedChildren.run.run s with ⟨failure | merged, s'⟩
    · rfl
    · simp only [outcomeUnder, run_complete]
      rw [rename_withChildren]

/-- **A run looks at no name.** Whatever nodes, files and places are called, and whatever selectors are called as long
    as different ones are called differently, the run on the renamed tree returns the renamed tree with the same
    counts, or fails at the same node, with the same message unless that one names a marker at the root. -/
theorem resolve_rename {ρ : Renaming} (hρ : Function.Injective ρ.selector) (root : Node) (s : Stats) :
    match root.resolve.run.run s with
    | (.ok resolved, s') => (root.rename ρ).resolve.run.run s = (.ok (resolved.rename ρ), s')
    | (.error failure, s') =>
      ∃ renamed : Failure, (root.rename ρ).resolve.run.run s = (.error renamed, s') ∧
        renamed.backtrace = failure.backtrace.map ρ.location ∧
        renamed.message =
          match root.kind with
          | .inherit target => s!"@inherit of '{ρ.target target}' has no enclosing scope to splice into"
          | .rule _ | .other _ _ => failure.message := by
  rw [run_resolve_rename hρ root s]
  rcases h : root.resolve.run.run s with ⟨failure | resolved, s'⟩
  · refine ⟨failure.rename ρ, rfl, rfl, ?_⟩
    cases hkind : root.kind with
    | inherit target =>
      rw [resolve, hkind] at h
      cases h
      rfl
    | rule selector =>
      have hcause := cause_of_resolve_fails (by rw [isMarker, hkind]) h
      simp only [Failure.message, Failure.rename, hcause]
    | other tag text =>
      have hcause := cause_of_resolve_fails (by rw [isMarker, hkind]) h
      simp only [Failure.message, Failure.rename, hcause]
  · rfl

/-- Other names that tell nothing apart but selectors. -/
def blurred : Renaming where
  selector selector := selector ++ "!"
  location _ := ⟨"somewhere.css", 0⟩
  other _ := ("node", none)
  target _ := "something.css"

/-- A page with two selectors that differ in a blank only, one of which is inherited. -/
def blankPage : Node :=
  { root "page.css" with
    children := [
      { rule ".a" with children := [declaration "margin: 0"], location := ⟨"page.css", 2⟩ },
      rule ".a ",
      { marker "base.css" with children := [{ rule ".a" with location := ⟨"base.css", 1⟩ }] }] }

theorem resolve_rename_blankPage :
    Function.Injective blurred.selector ∧
      (∃ resolved s, blankPage.resolve.run.run {} = (.ok resolved, s) ∧ resolved.countNodes = 4 ∧
        s = { scopes := 5, markersSpliced := 1, nodesSpliced := 1, rulesMerged := 1 } ∧
          (blankPage.rename blurred).resolve.run.run {} = (.ok (resolved.rename blurred), s)) ∧
      ∃ renamed : Failure, ((marker "base.css").rename blurred).resolve.run.run {} = (.error renamed, {}) ∧
        renamed.backtrace = [⟨"somewhere.css", 0⟩] ∧
        renamed.message = "@inherit of 'something.css' has no enclosing scope to splice into" := by
  have hblurred : Function.Injective blurred.selector := by
    intro selector selector' h
    exact (String.append_left_inj "!").1 h
  exact ⟨hblurred, ⟨_, _, rfl, rfl, rfl, resolve_rename hblurred blankPage {}⟩,
    resolve_rename hblurred (marker "base.css") {}⟩

end Node

end StyleTree
