import StyleTree.Node.Basic

/-!
# `StyleTree.Inherit.Merge` — inherited rules and the rules they replace

Among the nodes of one scope, a rule that came out of an inherited block stands for every rule of the same
selector that the scope declares itself: it takes over their children, and they disappear. Inherited rules
have their turn one after the other, the last one first, so that of several with one selector the last one
takes over.

A scope being merged (`Merging`) keeps the place of each node, empty once its node has disappeared, so that
places mean the same throughout a `merge`. A turn offers every native node to one inherited rule (`takeTurn`,
`offer`). A selector is asked for only when it is needed, and a rule that has none then fails the scope.
-/

namespace StyleTree

/-- Whether the node is a rule that came out of an inherited block. -/
def Node.isInheritedRule (n : Node) : Bool :=
  n.inherited && n.isRule

/-- The node with more children behind its own. -/
def Node.adopt (n : Node) (more : List Node) : Node :=
  { n with children := n.children ++ more }

/-- The places of the nodes with the given property, in ascending order. The first node stands at the
    given place. -/
def placesWhere (property : Node → Bool) (first : Nat) : List Node → List Nat
  | [] => []
  | n :: ns =>
    if property n then first :: placesWhere property (first + 1) ns
    else placesWhere property (first + 1) ns

/-! ## A scope being merged -/

/-- A scope in the course of a merge. -/
structure Merging where
  /-- The nodes at their places; the place of a node that has disappeared is empty. -/
  places : List (Option Node)
  /-- How many nodes have disappeared. -/
  consumed : Nat := 0

namespace Merging

/-- The node at a place, unless it has disappeared. -/
def node? (m : Merging) (place : Nat) : Option Node :=
  m.places[place]?.join

/-- Whether there still is a rule with the selector at the place. The selector of a rule is asked for, the
    one of any other node is not. -/
def hasSelector (m : Merging) (selector : String) (place : Nat) : Except Failure Bool :=
  match m.node? place with
  | some n =>
    if n.isRule then do
      let own ← n.selectorKey
      return own == selector
    else return false
  | none => return false

/-- The node at one place takes over the children of the node at another, which disappears. -/
def absorb (m : Merging) (taker place : Nat) : Merging :=
  match m.node? place with
  | some native =>
    { places := (m.places.set place none).modify taker (Option.map (·.adopt native.children))
      consumed := m.consumed + 1 }
  | none => m

/-- Offers a native node to the inherited rule with the given selector. -/
def offer (selector : String) (taker : Nat) (m : Merging) (native : Nat) : Except Failure Merging := do
  if ← m.hasSelector selector native then return m.absorb taker native
  else return m

/-- The turn of one inherited rule: all native nodes are offered to it. -/
def takeTurn (natives : List Nat) (m : Merging) (taker : Nat) : Except Failure Merging :=
  match m.node? taker with
  | some n => do
    let selector ← n.selectorKey
    natives.foldlM (offer selector taker) m
  | none => return m

end Merging

/-- Merges a scope; also returns how many rules disappeared. Without an inherited rule no selector is ever
    looked at. -/
def merge (scope : List Node) : Except Failure (List Node × Nat) := do
  let takers := placesWhere Node.isInheritedRule 0 scope
  if takers.isEmpty then return (scope, 0)
  let natives := placesWhere (fun n => !n.inherited) 0 scope
  let merged ← takers.reverse.foldlM (Merging.takeTurn natives) { places := scope.map some }
  return (merged.places.filterMap id, merged.consumed)

end StyleTree
