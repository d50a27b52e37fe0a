import StyleTree.Inherit.Merge

/-!
# `StyleTree.Inherit.Resolve` — resolving a tree

Every node gathers its children in a scope. A marker leaves no node behind: it hands its own scope, already
merged and marked as inherited, to the scope around it. A complete scope is merged and becomes the new list
of children (`Node.settle`). So markers inside markers are resolved from the inside out, and a failure unwinds
through the nodes whose scopes were open.

A run counts what it does (`Stats`), and keeps its counts when it fails. One run may resolve many trees with
`Node.resolve`; its counts add up.
-/

namespace StyleTree

/-! ## Counting -/

/-- What a run has done so far. -/
structure Stats where
  /-- Scopes completed, one for each node that is no marker. -/
  scopes : Nat := 0
  /-- Markers that handed their children on. -/
  markersSpliced : Nat := 0
  /-- Nodes that markers handed on. -/
  nodesSpliced : Nat := 0
  /-- Rules that disappeared into an inherited rule. -/
  rulesMerged : Nat := 0
deriving DecidableEq, Repr

/-- A computation that counts what it does and may fail. Counts made before a failure stay. -/
abbrev ResolveM := ExceptT Failure (StateM Stats)

namespace ResolveM

/-- Changes the counts. -/
def tally (change : Stats → Stats) : ResolveM Unit :=
  modify change

/-- Adds a node to the backtrace of any failure. -/
def within {α : Type} (location : Location) (action : ResolveM α) : ResolveM α :=
  tryCatch action fun failure => throw (failure.within location)

/-- Merges a complete scope and counts the rules that disappear. -/
def mergeScope (scope : List Node) : ResolveM (List Node) := do
  let (merged, consumed) ← liftExcept (merge scope)
  tally fun stats => { stats with rulesMerged := stats.rulesMerged + consumed }
  return merged

end ResolveM

/-! ## Resolving -/

namespace Node

open ResolveM

/-- The node with its scope complete. -/
def complete (n : Node) (merged : List Node) : ResolveM Node := do
  tally fun stats => { stats with scopes := stats.scopes + 1 }
  return { n with children := merged }

/-- The nodes that a marker hands on, marked as inherited. -/
def splice (merged : List Node) : ResolveM (List Node) := do
  tally fun stats =>
    { stats with
      markersSpliced := stats.markersSpliced + 1
      nodesSpliced := stats.nodesSpliced + merged.length }
  return merged.map fun n => { n with inherited := true }

/-- What a node with a complete scope leaves in the scope around it. -/
def settle (n : Node) (merged : List Node) : ResolveM (List Node) := do
  match n.kind with
  | .inherit _ => splice merged
  | .rule _ | .other _ _ => return [← n.complete merged]

mutual

/-- The merged scope of a node: what its children leave there. -/
def mergedChildren : Node → ResolveM (List Node)
  | ⟨_, children, _, location⟩ => within location do mergeScope (← scopeOf children)

/-- The scope that the given children fill. -/
def scopeOf : List Node → ResolveM (List Node)
  | [] => return []
  | n :: ns => do
    let merged ← n.mergedChildren
    let left ← n.settle merged
    return left ++ (← scopeOf ns)

end

/-- Resolves every marker below the root. A marker at the root has no scope around it. -/
def resolve (root : Node) : ResolveM Node := do
  match root.kind with
  | .inherit target =>
    throw ((Failure.mk (.markerAtRoot target) []).within root.location)
  | .rule _ | .other _ _ => root.complete (← root.mergedChildren)

/-- Resolves a tree on its own; returns the tree or the failure, and what was counted. -/
def resolved (root : Node) : Except Failure Node × Stats :=
  (resolve root).run.run {}

end Node

end StyleTree
