import StyleTree.Proofs.Inherit.Accounting

/-!
# `Proofs.Inherit.Backtrace` — what is left of a run that fails

A run is done with the children of a node before it merges the scope of the node. So the first scope that cannot be
merged is the first in postorder, everything before it has been counted, and the failure unwinds through the nodes
that are still open: those around it. With `Stuck` for a node whose scope is complete and cannot be merged,
`resolve_error_at` tells which node a run fails at, what it says, and what it has counted.
-/

namespace StyleTree

namespace Node

/-! ## The node -/

/-- The children of the node fill its scope, and the scope holds an inherited rule and a rule that was never
    resolved. -/
def Stuck (p : Node) : Prop :=
  ∃ scope s, (scopeOf p.children).run.run {} = (.ok scope, s) ∧
    scope.any isInheritedRule = true ∧ scope.any isUnresolvedRule = true

/-- A run gets stuck at a node if its children have got through and its scope lacks a selector. -/
theorem stuck_iff {p : Node} :
    p.Stuck ↔ (∀ child ∈ p.children, child.SelectorsSuffice) ∧ lacksSelector p.scope = true := by
  rw [lacksSelector, Bool.and_eq_true]
  constructor
  · rintro ⟨scope, s, hrun, hlacks⟩
    by_cases hchildren : ∀ child ∈ p.children, child.SelectorsSuffice
    · rw [scopeOf_run p.children {} hchildren] at hrun
      cases hrun
      exact ⟨hchildren, hlacks⟩
    · obtain ⟨_, _, -, hfails⟩ := scopeOf_fails p.children {} hchildren
      rw [hfails] at hrun
      cases hrun
  · rintro ⟨hchildren, hlacks⟩
    exact ⟨_, _, scopeOf_run p.children {} hchildren, hlacks⟩

/-! ## The outcome -/

/-- **Where a run fails, what it says, and what it has counted.** It fails at the first node in postorder whose
    complete scope holds an inherited rule and one that was never resolved. The backtrace leads from that node to
    the root, and what was done before stays counted. -/
theorem resolve_error_at {root : Node} (hroot : root.isMarker = false) {failure : Failure} {s s' : Stats}
    (h : root.resolve.run.run s = (.error failure, s')) :
    ∃ before p around after, root.postorder = before ++ (p, around) :: after ∧
      p.Stuck ∧ (∀ earlier ∈ before, ¬earlier.1.Stuck) ∧
      List.IsChain (fun inner outer => inner ∈ outer.children) (p :: around) ∧
      (p :: around).getLast? = some root ∧
      failure.message = "rule selector has not been resolved" ∧
      failure.backtrace = (p :: around).map location ∧
      failure.backtrace.length = around.length + 1 ∧
      s' = s + counted (before.map Prod.fst) := by
  by_cases hsuffice : root.SelectorsSuffice
  · rw [resolve_run hroot hsuffice] at h
    cases h
  · obtain ⟨before, ⟨p, around⟩, hfirst, hfails⟩ := mergedChildren_fails root s hsuffice
    rw [resolve_of_not_marker hroot, ResolveM.run_bind, hfails] at h
    cases h
    obtain ⟨after, hsplit⟩ := hfirst.split
    have hmem : (p, around) ∈ root.postorder := by simp [hsplit]
    obtain ⟨hchain, hlast⟩ := isChain_of_mem_postorder hmem
    refine ⟨before, p, around, after, hsplit, stuck_iff.2 ⟨hfirst.inside, hfirst.lacks⟩, ?_, hchain, hlast, rfl, rfl,
      ?_, ?_⟩
    · intro earlier hearlier hstuck
      rw [stuck_iff, hfirst.before earlier hearlier] at hstuck
      cases hstuck.2
    · rw [lackingFailure, List.length_map, List.length_cons]
    · rw [tolls_eq_counted]

/-- A page that inherits a rule which was never resolved, inside one of its own rules. -/
def brokenPage : Node :=
  { root "page.css" with
    children := [
      { marker "base.css" with
        children := [
          { rule ".b" with location := ⟨"base.css", 1⟩ },
          { marker "reset.css" with children := [{ rule ".b" with location := ⟨"reset.css", 1⟩ }] }] },
      { rule ".page" with
        children := [
          rule ".a",
          { marker "deep.css" with children := [{ unresolvedRule with location := ⟨"deep.css", 1⟩ }] }]
        location := ⟨"page.css", 2⟩ },
      rule ".b"] }

theorem resolve_error_at_brokenPage :
    ∃ failure s, brokenPage.resolve.run.run {} = (.error failure, s) ∧
      failure.backtrace = [⟨"page.css", 2⟩, ⟨"page.css", 1⟩] ∧
      s = { scopes := 4, markersSpliced := 3, nodesSpliced := 3, rulesMerged := 1 } ∧
      ∃ before p around after, brokenPage.postorder = before ++ (p, around) :: after ∧
        p.Stuck ∧ (∀ earlier ∈ before, ¬earlier.1.Stuck) ∧
        List.IsChain (fun inner outer => inner ∈ outer.children) (p :: around) ∧
        (p :: around).getLast? = some brokenPage ∧
        failure.message = "rule selector has not been resolved" ∧
        failure.backtrace = (p :: around).map location ∧
        failure.backtrace.length = around.length + 1 ∧
        s = ({} : Stats) + counted (before.map Prod.fst) := by
  have hrun : brokenPage.resolve.run.run {} =
      (.error { cause := .unresolvedSelector, backtrace := [⟨"page.css", 2⟩, ⟨"page.css", 1⟩] },
        { scopes := 4, markersSpliced := 3, nodesSpliced := 3, rulesMerged := 1 }) := by
    rfl
  exact ⟨_, _, hrun, rfl, rfl, resolve_error_at rfl hrun⟩

end Node

end StyleTree
