import StyleTree.Proofs.Node.Described

/-!
# `Proofs.Node.Lines` — the line of every node

A node is on the line that its list names, or else on the line where its list begins (`SExp.nodeLine`). So the lines of
a tree are said by the lists alone, in their order (`lines_of_ofSExp`), and only the lines of lists that name none
depend on where the lists stand.
-/

namespace StyleTree

namespace SExp

/-! ## One node -/

/-- The line that a list names for the node it describes, if it names one. -/
def namedLine? : SExp → Option Nat
  | .atom _ _ => none
  | .list elements pos =>
    match Form.split elements pos with
    | .error _ => none
    | .ok form => (form.field? "line").bind fun value => value.asNumber.toOption

/-- The line of the node that a list describes: the one it names, or else its own. -/
def nodeLine (description : SExp) : Nat :=
  description.namedLine?.getD description.position.line

theorem namedLine?_of_split {elements : List SExp} {pos : Position} {form : Form}
    (h : Form.split elements pos = .ok form) :
    (SExp.list elements pos).namedLine? = (form.field? "line").bind fun value => value.asNumber.toOption := by
  rw [namedLine?, h]

end SExp

namespace Node

theorem Describes.line {description : SExp} {n : Node} (h : n.Describes description) :
    n.location.line = description.nodeLine := by
  obtain ⟨elements, pos, rfl, form, file, hform, hheader⟩ := h
  have hline := (Form.location_eq_ok (Form.header_eq_ok hheader).1).2
  rw [SExp.nodeLine, SExp.namedLine?_of_split hform]
  cases hfield : form.field? "line" with
  | none =>
    rw [hfield] at hline
    exact (Except.ok.inj hline).symm
  | some value =>
    rw [hfield] at hline
    change value.asNumber = .ok n.location.line at hline
    show n.location.line = value.asNumber.toOption.getD pos.line
    rw [hline]
    rfl

/-! ## All nodes -/

/-- **The lines of a tree are those that its lists say**, in the order of a visit. -/
theorem lines_of_ofSExp {file : String} {e : SExp} {n : Node} (h : ofSExp file e = .ok n) :
    n.preorder.map (fun m => m.location.line) = e.descriptions.map SExp.nodeLine := by
  have hlines : List.Forall₂ (fun m description => m.location.line = description.nodeLine) n.preorder e.descriptions :=
    ((describes_of_ofSExp e h).imp fun _ _ hdescribes => Describes.line hdescribes).flip
  rw [← List.forall₂_eq_eq_eq, List.forall₂_map_left_iff, List.forall₂_map_right_iff]
  exact hlines

end Node

/-! ## No places -/

namespace SExp

theorem descriptionsIn_unplaced {es : List SExp}
    (h : ∀ e ∈ es, e.unplaced.descriptions = e.descriptions.map unplaced) (taken : Bool) :
    descriptionsIn taken (es.map unplaced) = (descriptionsIn taken es).map unplaced := by
  induction es generalizing taken with
  | nil => rfl
  | cons e es ih =>
    have hlater := ih fun e' he' => h e' (List.mem_cons_of_mem _ he')
    rw [List.map_cons, descriptionsIn, descriptionsIn]
    cases taken with
    | true => exact hlater false
    | false =>
      rw [if_neg Bool.false_ne_true, if_neg Bool.false_ne_true, List.map_append, h e List.mem_cons_self,
        isKeyword_unplaced, hlater]

/-- The same lists describe nodes. -/
theorem descriptions_unplaced (e : SExp) : e.unplaced.descriptions = e.descriptions.map unplaced := by
  induction e using elementInduction with
  | atom a pos => rfl
  | list elements pos ih =>
    rw [unplaced_list, descriptions, descriptions, List.map_cons, unplaced_list, descriptionsIn_unplaced ih]

/-- They name the same lines. -/
theorem namedLine?_unplaced (e : SExp) : e.unplaced.namedLine? = e.namedLine? := by
  cases e with
  | atom a pos => rfl
  | list elements pos =>
    have hsplit := Form.split_unplaced elements pos .synthetic
    rw [unplaced_list]
    cases hform : Form.split elements pos with
    | error error =>
      rw [hform] at hsplit
      obtain ⟨error', hunplaced, -⟩ := withoutPlaces_eq_error.1 hsplit
      rw [namedLine?, namedLine?, hform, hunplaced]
    | ok form =>
      rw [hform] at hsplit
      obtain ⟨unplacedForm, hunplaced, rfl⟩ := withoutPlaces_eq_ok.1 hsplit
      rw [namedLine?_of_split hform, namedLine?_of_split hunplaced]
      change (form.unplaced.field? "line").bind _ = _
      rw [Form.field?_unplaced, Option.bind_map]
      refine Option.bind_congr fun value _ => ?_
      exact toOption_of_withoutPlaces value.asNumber_unplaced

/-- So two expressions that differ in places alone name the same lines. -/
theorem map_namedLine?_of_unplaced {e e' : SExp} (h : e'.unplaced = e.unplaced) :
    e'.descriptions.map namedLine? = e.descriptions.map namedLine? := by
  have hnamed : ∀ e : SExp, e.unplaced.descriptions.map namedLine? = e.descriptions.map namedLine? := by
    intro e
    rw [descriptions_unplaced, List.map_map]
    exact List.map_congr_left fun description _ => description.namedLine?_unplaced
  rw [← hnamed e', h, hnamed e]

end SExp

end StyleTree
