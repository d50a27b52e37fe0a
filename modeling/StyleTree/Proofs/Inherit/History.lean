import StyleTree.Proofs.Inherit.Pass

/-!
# `Proofs.Inherit.History` — one run after another

Whoever resolves several trees one after the other keeps nothing but the counts. A scope belongs to the node whose
children fill it, so none is left open when a tree fails, and no step of a run asks what has been counted so far. So
each tree is answered as if it were the first, and what is counted for the trees adds up, those that fail included.
-/

namespace StyleTree

namespace Node

/-! ## One tree -/

/-- A run that has counted before gives the answer of a run on the tree alone, and counts that much more. It is the
    first node with a scope that lacks a selector where either of them fails, and there is only one. -/
theorem run_resolve_eq (root : Node) (s : Stats) :
    root.resolve.run.run s = (root.resolved.1, s + root.resolved.2) := by
  rw [resolved]
  cases hroot : root.isMarker with
  | true =>
    obtain ⟨target, hkind⟩ := isMarker_iff.1 hroot
    rw [resolve, hkind]
    exact congrArg (Prod.mk _) (add_zero s).symm
  | false =>
    by_cases hsuffice : root.SelectorsSuffice
    · rw [resolve_run hroot hsuffice, resolve_run hroot hsuffice, ← Stats.zero_def, zero_add, Stats.add_assoc]
    · obtain ⟨before, place, hfirst, hfails⟩ := mergedChildren_fails root s hsuffice
      obtain ⟨before', place', hfirst', hfails'⟩ := mergedChildren_fails root {} hsuffice
      obtain ⟨rfl, rfl⟩ := hfirst.unique hfirst'
      rw [resolve_of_not_marker hroot, ResolveM.run_bind, ResolveM.run_bind, hfails, hfails', ← Stats.zero_def,
        zero_add]

/-! ## Many trees -/

/-- Resolves the trees one after the other, in a run that has counted so much before. Returns the answer for each
    tree, with what is counted when it is given. -/
def resolveInTurn (s : Stats) : List Node → List (Except Failure Node × Stats)
  | [] => []
  | root :: roots =>
    let (answer, s') := root.resolve.run.run s
    (answer, s') :: resolveInTurn s' roots

/-- **Trees that are resolved in turn know nothing of each other.** Each is answered as if it were resolved alone,
    whether those before it failed or not, and what is counted by then is the sum of what is counted for each tree up
    to this one alone. -/
theorem resolveInTurn_getElem? (s : Stats) (roots : List Node) (i : Nat) :
    (resolveInTurn s roots)[i]?
      = roots[i]?.map fun root => (root.resolved.1, s + ((roots.take (i + 1)).map fun r => r.resolved.2).sum) := by
  induction roots generalizing s i with
  | nil => rfl
  | cons root roots ih =>
    rw [resolveInTurn, run_resolve_eq]
    cases i with
    | zero => simp
    | succ i =>
      rw [List.getElem?_cons_succ, ih, List.getElem?_cons_succ, List.take_succ_cons, List.map_cons, List.sum_cons]
      simp only [Stats.add_assoc]

end Node

end StyleTree
