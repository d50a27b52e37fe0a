import StyleTree.Position

/-!
# `StyleTree.Failure` — why a tree cannot be transformed

A transformation fails at a node, for a reason (`Failure.Cause`). On the way out of the tree every node that was
being worked on adds its location (`within`), so that a failure tells how the place was reached, the innermost
node first.
-/

namespace StyleTree

/-- What went wrong. -/
inductive Failure.Cause where
  /-- A selector was needed that no earlier stage has resolved. -/
  | unresolvedSelector
  /-- A selector was asked of a node that is no rule; the name says what it is. -/
  | notARule (name : String)
  /-- The root is a marker, so there is no scope around it that could take its children. -/
  | markerAtRoot (target : String)
  /-- A failure of a client's own transformation, in the client's words. -/
  | reported (message : String)
deriving DecidableEq, Repr

/-- The cause in words. -/
def Failure.Cause.message : Failure.Cause → String
  | .unresolvedSelector => "rule selector has not been resolved"
  | .notARule name => s!"{name} node has no selector"
  | .markerAtRoot target => s!"@inherit of '{target}' has no enclosing scope to splice into"
  | .reported message => message

/-- A failed transformation. -/
structure Failure where
  /-- What went wrong. -/
  cause : Failure.Cause
  /-- The nodes that were being worked on, the innermost first. -/
  backtrace : List Location := []
deriving DecidableEq, Repr

namespace Failure

/-- The failure seen from one node further out. -/
def within (failure : Failure) (location : Location) : Failure :=
  { failure with backtrace := failure.backtrace ++ [location] }

/-- What went wrong, in words. -/
def message (failure : Failure) : String :=
  failure.cause.message

/-- The node closest to the failure. -/
def location? (failure : Failure) : Option Location :=
  failure.backtrace.head?

/-- The backtrace, a line for each node. -/
def backtraceText (failure : Failure) : String :=
  "\n".intercalate (failure.backtrace.map fun location => s!"  from {location}")

end Failure

end StyleTree
