import StyleTree.Proofs.Inherit.Turns

/-!
# `Proofs.Inherit.Siblings` — a merge, entry by entry

Whoever reads a list of siblings can tell what a merge makes of it without following the turns: which entries are
removed (`Replaced`), and at which places the children of the removed ones go (`LastInherits`). Each entry is judged by
its own place in the list, so one that stands twice is judged twice. A merge fails or leaves just `siblingsLeft`, and a
second merge leaves that alone: `merge_siblings`.
-/

namespace StyleTree

namespace Node

/-! ## Entries -/

/-- The node is a rule of the selector that is flagged as inherited. -/
def Inherits (n : Node) (selector : String) : Prop :=
  n.inherited = true ∧ n.kind = .rule (some selector)

/-- The node is a rule of the selector without the flag. -/
def Declares (n : Node) (selector : String) : Prop :=
  n.inherited = false ∧ n.kind = .rule (some selector)

instance (n : Node) (selector : String) : Decidable (n.Inherits selector) :=
  inferInstanceAs (Decidable (n.inherited = true ∧ n.kind = .rule (some selector)))

instance (n : Node) (selector : String) : Decidable (n.Declares selector) :=
  inferInstanceAs (Decidable (n.inherited = false ∧ n.kind = .rule (some selector)))

end Node

/-- The entry has no flag, and among the siblings a flagged rule has its selector. -/
def Replaced (siblings : List Node) (n : Node) : Prop :=
  ∃ selector, n.Declares selector ∧ ∃ q ∈ siblings, q.Inherits selector

/-- An entry is removed if it would disappear from the scope of its siblings. -/
theorem replaced_iff {siblings : List Node} {n : Node} : Replaced siblings n ↔ consumedIn siblings n = true := by
  simp only [Replaced, consumedIn_iff, inheritsSelector_iff, nativeSelector?_eq_some_iff]
  rfl

instance (siblings : List Node) (n : Node) : Decidable (Replaced siblings n) :=
  decidable_of_iff _ replaced_iff.symm

/-- At the place stands a flagged rule of the selector, and none behind it. -/
def LastInherits (siblings : List Node) (place : Nat) (selector : String) : Prop :=
  (∃ n ∈ siblings[place]?, n.Inherits selector) ∧ ∀ q ∈ siblings.drop (place + 1), ¬q.Inherits selector

instance (siblings : List Node) (place : Nat) (selector : String) : Decidable (LastInherits siblings place selector) :=
  inferInstanceAs (Decidable ((∃ n ∈ siblings[place]?, n.Inherits selector) ∧
    ∀ q ∈ siblings.drop (place + 1), ¬q.Inherits selector))

/-! ## The list -/

/-- The siblings hold a flagged rule, and a rule that was never resolved, which may be the same one. -/
def Unmergeable (siblings : List Node) : Prop :=
  (∃ q ∈ siblings, q.inherited = true ∧ q.isRule = true) ∧ ∃ u ∈ siblings, u.kind = .rule none

instance (siblings : List Node) : Decidable (Unmergeable siblings) :=
  inferInstanceAs (Decidable ((∃ q ∈ siblings, q.inherited = true ∧ q.isRule = true) ∧
    ∃ u ∈ siblings, u.kind = .rule none))

/-- What the entry at a place becomes: the last flagged rule of a selector has the children of all unflagged rules
    of the selector behind its own, in the order of the siblings. -/
def entryLeft (siblings : List Node) (place : Nat) (n : Node) : Node :=
  match n.selector? with
  | some selector =>
    if LastInherits siblings place selector then
      { n with children := n.children ++ (siblings.filter fun r => r.Declares selector).flatMap Node.children }
    else n
  | none => n

/-- The entries that are not replaced, in their order. -/
def siblingsLeft (siblings : List Node) : List Node :=
  (siblings.zipIdx.filter fun entry => ¬Replaced siblings entry.1).map fun entry =>
    entryLeft siblings entry.2 entry.1

theorem unmergeable_iff {siblings : List Node} : Unmergeable siblings ↔ lacksSelector siblings = true := by
  simp [Unmergeable, lacksSelector, Node.isInheritedRule, Node.isUnresolvedRule]

/-- What is taken over under a selector are the children of the entries that declare it, in their order. -/
theorem absorbed_eq (siblings : List Node) (selector : String) :
    absorbed siblings selector = (siblings.filter fun r => r.Declares selector).flatMap Node.children := by
  have hsame : ∀ r ∈ siblings, decide (r.nativeSelector? = some selector) = decide (r.Declares selector) := by
    intro r _
    rw [decide_eq_decide]
    exact nativeSelector?_eq_some_iff
  rw [absorbed, List.filter_congr hsame]

/-- Of an entry at its place, being the last flagged rule of its selector is what a merge asks of it. -/
theorem taking_eq_entryLeft {siblings : List Node} {place : Nat} {n : Node} (h : siblings[place]? = some n) :
    taking siblings (siblings.drop (place + 1)) n = entryLeft siblings place n := by
  have hlast : ∀ selector, LastInherits siblings place selector ↔
      n.Inherits selector ∧ inheritsSelector (siblings.drop (place + 1)) selector = false := by
    intro selector
    rw [LastInherits, h, ← Bool.not_eq_true, inheritsSelector_iff]
    simp [Node.Inherits]
  unfold taking entryLeft
  cases hn : n.inheritedSelector? with
  | none =>
    have hnot : ∀ selector, ¬LastInherits siblings place selector := by
      intro selector hsel
      rw [inheritedSelector?_eq_some_iff.2 ((hlast selector).1 hsel).1] at hn
      cases hn
    cases n.selector? with
    | none => rfl
    | some selector => exact (if_neg (hnot selector)).symm
  | some selector =>
    have hinh := inheritedSelector?_eq_some_iff.1 hn
    rw [Node.selector?_eq_some_iff.2 hinh.2]
    show (if inheritsSelector _ selector = true then n else _) = if LastInherits siblings place selector then _ else n
    cases hlater : inheritsSelector (siblings.drop (place + 1)) selector with
    | true =>
      have hnot : ¬LastInherits siblings place selector := by
        intro hsel
        rw [((hlast selector).1 hsel).2] at hlater
        cases hlater
      rw [if_pos rfl, if_neg hnot]
    | false => rw [if_neg (by simp), if_pos ((hlast selector).2 ⟨hinh, hlater⟩), absorbed_eq, Node.adopt]

/-- Both descriptions of a merge without an order agree. -/
theorem mergeNodes_eq_siblingsLeft (siblings : List Node) : mergeNodes siblings = siblingsLeft siblings := by
  have htakeOver : takeOver siblings siblings = siblings.zipIdx.map fun entry =>
      taking siblings (siblings.drop (entry.2 + 1)) entry.1 := by
    apply List.ext_getElem?
    intro i
    rw [takeOver_getElem?, List.getElem?_map, List.getElem?_zipIdx]
    cases siblings[i]? <;> simp
  rw [mergeNodes, htakeOver, List.filter_map, siblingsLeft]
  have hfilter : ∀ entry ∈ siblings.zipIdx,
      ((fun n => !consumedIn siblings n) ∘ fun entry => taking siblings (siblings.drop (entry.2 + 1)) entry.1) entry
        = decide ¬Replaced siblings entry.1 := by
    intro entry _
    rw [Function.comp_apply, consumedIn_taking, decide_not, Bool.not_inj_iff, Bool.eq_iff_iff, decide_eq_true_iff,
      replaced_iff]
  rw [List.filter_congr hfilter]
  apply List.map_congr_left
  intro entry hentry
  exact taking_eq_entryLeft (List.mk_mem_zipIdx_iff_getElem?.1 (List.mem_filter.1 hentry).1)

/-! ## The outcome -/

/-- **A merge, entry by entry.** It fails if some sibling is a flagged rule and some an unresolved one. Otherwise it
    leaves the entries that are not replaced, tells how many are, and finds nothing to do in what it has left. -/
theorem merge_siblings (siblings : List Node) :
    (Unmergeable siblings → merge siblings = .error { cause := .unresolvedSelector }) ∧
      (¬Unmergeable siblings →
        merge siblings = .ok (siblingsLeft siblings, siblings.countP fun n => Replaced siblings n) ∧
          merge (siblingsLeft siblings) = .ok (siblingsLeft siblings, 0)) := by
  constructor
  · intro h
    rw [merge_eq, if_pos (unmergeable_iff.1 h)]
  · intro h
    rw [unmergeable_iff, Bool.not_eq_true] at h
    have hcount : siblings.countP (fun n => Replaced siblings n) = siblings.countP (consumedIn siblings) := by
      apply List.countP_congr
      intro n _
      rw [decide_eq_true_iff, replaced_iff]
    rw [hcount, ← mergeNodes_eq_siblingsLeft]
    constructor
    · rw [merge_eq, h, if_neg (by simp)]
    · -- Nothing disappears from what is left, so a second merge has nothing to do.
      have hstays : ∀ n ∈ mergeNodes siblings, consumedIn (mergeNodes siblings) n = false :=
        fun n hn => consumedIn_of_mem_mergeNodes hn
      have hnone : (mergeNodes siblings).countP (consumedIn (mergeNodes siblings)) = 0 :=
        List.countP_eq_zero.2 fun n hn => by simp [hstays n hn]
      rw [merge_eq, lacksSelector_mergeNodes h, if_neg (by simp), mergeNodes_eq_self hstays, hnone]

/-- Siblings with two inherited rules of one selector; of its own rules, one stands in front of them and two behind. -/
def crowdedSiblings : List Node :=
  [{ Node.rule ".a" with children := [Node.declaration "margin: 0"] },
    { Node.rule ".a" with inherited := true, children := [Node.declaration "color: red"] },
    Node.rule ".b",
    { Node.rule ".a" with inherited := true, children := [Node.declaration "color: blue"] },
    { Node.rule ".a" with children := [Node.declaration "width: 1em"] },
    { Node.marker "base.css" with inherited := true },
    Node.rule ".a"]

theorem merge_siblings_crowdedSiblings :
    ¬Unmergeable crowdedSiblings ∧
      (Unmergeable crowdedSiblings → merge crowdedSiblings = .error { cause := .unresolvedSelector }) ∧
      merge crowdedSiblings = .ok (siblingsLeft crowdedSiblings, 3) ∧
      merge (siblingsLeft crowdedSiblings) = .ok (siblingsLeft crowdedSiblings, 0) ∧
      siblingsLeft crowdedSiblings =
        [{ Node.rule ".a" with inherited := true, children := [Node.declaration "color: red"] },
          Node.rule ".b",
          { Node.rule ".a" with
            inherited := true
            children := [Node.declaration "color: blue", Node.declaration "margin: 0", Node.declaration "width: 1em"] },
          { Node.marker "base.css" with inherited := true }] := by
  have hmergeable : ¬Unmergeable crowdedSiblings := by decide
  have hmerge := (merge_siblings crowdedSiblings).2 hmergeable
  exact ⟨hmergeable, (merge_siblings crowdedSiblings).1, hmerge.1, hmerge.2, by decide⟩

end StyleTree
