import StyleTree.Proofs.Node.Form
import StyleTree.Proofs.Node.Walk
import StyleTree.Proofs.Node.Written
import StyleTree.Proofs.SExp.Readable

/-!
# `Proofs.Node.Described` — where the nodes of a tree are described

Every node of a tree that was read is described by a list somewhere in the expression (`DescribedBy`), and the lists are
those that `SExp.descriptions` finds, in the order of a visit. So what the reader refuses in one list holds of no node:
there is no node with the name of another kind, and none on a line that is no machine word.
-/

namespace StyleTree

namespace SExp

/-! ## The lists that describe nodes -/

mutual

/-- The lists that describe the nodes of a tree, in the order in which they begin: the expression, if it is one, and
    then those inside it. -/
def descriptions : SExp → List SExp
  | .atom _ _ => []
  | .list elements pos => .list elements pos :: descriptionsIn false elements

/-- The lists that describe nodes inside a list, but for those that a keyword takes as its value. The flag says whether
    a keyword takes the next element. -/
def descriptionsIn (taken : Bool) : List SExp → List SExp
  | [] => []
  | e :: rest => if taken then descriptionsIn false rest else e.descriptions ++ descriptionsIn e.isKeyword rest

end

theorem mem_descriptionsIn {taken : Bool} {es : List SExp} {description : SExp}
    (h : description ∈ descriptionsIn taken es) : ∃ e ∈ es, description ∈ e.descriptions := by
  induction es generalizing taken with
  | nil =>
    rw [descriptionsIn] at h
    cases h
  | cons e es ih =>
    have hlater : ∀ {taken'}, description ∈ descriptionsIn taken' es →
        ∃ e' ∈ e :: es, description ∈ e'.descriptions := by
      intro taken' h
      obtain ⟨e', he', hmem⟩ := ih h
      exact ⟨e', List.mem_cons_of_mem _ he', hmem⟩
    rw [descriptionsIn] at h
    split at h
    · exact hlater h
    · rcases List.mem_append.1 h with h | h
      · exact ⟨e, List.mem_cons_self, h⟩
      · exact hlater h

/-- They are parts of the expression. -/
theorem mem_subexpressions_of_mem_descriptions (e : SExp) {description : SExp} (h : description ∈ e.descriptions) :
    description ∈ e.subexpressions := by
  induction e using elementInduction with
  | atom a pos =>
    rw [descriptions] at h
    cases h
  | list elements pos ih =>
    rw [descriptions] at h
    rcases List.mem_cons.1 h with rfl | h
    · exact mem_subexpressions_self _
    · obtain ⟨e, he, hmem⟩ := mem_descriptionsIn h
      rw [subexpressions, subexpressionsAll_eq_flatMap]
      exact List.mem_cons_of_mem _ (List.mem_flatMap.2 ⟨e, he, ih e he hmem⟩)

end SExp

namespace Node

/-! ## From node to list -/

/-- Whether the list with these elements at this place says about its own node what the node is. -/
def DescribedBy (elements : List SExp) (pos : Position) (n : Node) : Prop :=
  ∃ form file, Form.split elements pos = .ok form ∧
    form.header file pos = .ok { kind := n.kind, inherited := n.inherited, location := n.location }

/-- Whether the list says about its own node what the node is. -/
def Describes (description : SExp) (n : Node) : Prop :=
  ∃ elements pos, description = .list elements pos ∧ n.DescribedBy elements pos

/-- If each tree inside a list is described node by node, so are all of them. -/
theorem describes_of_ofElements {file : String} {es : List SExp} (h : ∀ e ∈ es, ∀ {n : Node}, ofSExp file e = .ok n →
    List.Forall₂ Describes e.descriptions n.preorder) : ∀ {taken : Bool} {ns : List Node},
      ofElements file taken es = .ok ns → List.Forall₂ Describes (SExp.descriptionsIn taken es) (preorderAll ns) := by
  induction es with
  | nil =>
    intro taken ns hread
    rw [ofElements] at hread
    cases hread
    exact .nil
  | cons e es ih =>
    intro taken ns hread
    have hlater := @ih fun e' he' => h e' (List.mem_cons_of_mem _ he')
    rw [SExp.descriptionsIn]
    cases taken with
    | true =>
      rw [Form.ofElements_taken] at hread
      exact hlater hread
    | false =>
      cases e with
      | atom a pos =>
        rw [Form.ofElements_atom] at hread
        exact hlater hread
      | list elements pos =>
        rw [Form.ofElements_list] at hread
        obtain ⟨child, hchild, hread⟩ := Except.bind_eq_ok hread
        obtain ⟨children, hchildren, hread⟩ := Except.bind_eq_ok hread
        cases hread
        exact List.rel_append (h _ List.mem_cons_self hchild) (hlater hchildren)

/-- **Every node is described by its list**, and the nodes come in the order of their lists. -/
theorem describes_of_ofSExp (e : SExp) : ∀ {file : String} {root : Node}, ofSExp file e = .ok root →
    List.Forall₂ Describes e.descriptions root.preorder := by
  induction e using SExp.elementInduction with
  | atom a pos =>
    intro file root h
    rw [ofSExp] at h
    cases h
  | list elements pos ih =>
    intro file root h
    rw [Form.ofSExp_list] at h
    obtain ⟨form, hform, h⟩ := Except.bind_eq_ok h
    obtain ⟨node, hnode, h⟩ := Except.bind_eq_ok h
    obtain ⟨children, hchildren, h⟩ := Except.bind_eq_ok h
    cases h
    -- The header is the node but for its children, which it has none of.
    have hself : node.DescribedBy elements pos := by
      have hnone := (Form.header_eq_ok hnode).2.2.2.2
      refine ⟨form, file, hform, ?_⟩
      cases node
      cases hnone
      exact hnode
    rw [SExp.descriptions, preorder_eq]
    exact .cons ⟨elements, pos, rfl, hself⟩ (describes_of_ofElements (fun e he => ih e he) hchildren)

/-- Every node is described by a list in the expression. -/
theorem exists_describedBy (e : SExp) {file : String} {root : Node} (h : ofSExp file e = .ok root) :
    ∀ n ∈ root.preorder, ∃ elements pos, .list elements pos ∈ e.subexpressions ∧ n.DescribedBy elements pos := by
  intro n hn
  obtain ⟨description, hdescription, elements, pos, rfl, hdescribed⟩ := (describes_of_ofSExp e h).exists_of_mem_right hn
  exact ⟨elements, pos, e.mem_subexpressions_of_mem_descriptions hdescription, hdescribed⟩

/-! ## What follows -/

theorem kind_eq_other {form : Form} {pos : Position} {tag : String} {text : Option String}
    (h : form.kind pos = .ok (.other tag text)) : tag = form.head ∧ (Kind.other tag text).WellTagged := by
  unfold Form.kind at h
  split at h
  · next hroot =>
    split at h
    · cases h
    · cases h
      exact ⟨hroot.symm, by decide, by decide, fun _ => rfl⟩
  split at h
  · obtain ⟨argument, -, h⟩ := Except.bind_eq_ok h
    obtain ⟨selector, -, h⟩ := Except.bind_eq_ok h
    cases h
  split at h
  · obtain ⟨argument, -, h⟩ := Except.bind_eq_ok h
    obtain ⟨target, -, h⟩ := Except.bind_eq_ok h
    cases h
  · next hroot hrule hinherit =>
    split at h
    · obtain ⟨text, -, h⟩ := Except.bind_eq_ok h
      cases h
      exact ⟨rfl, hrule, hinherit, fun htag => absurd htag hroot⟩
    · cases h
      exact ⟨rfl, hrule, hinherit, fun htag => absurd htag hroot⟩

/-- No node is written like one of another kind. -/
theorem DescribedBy.wellTagged {elements : List SExp} {pos : Position} {n : Node} (h : n.DescribedBy elements pos) :
    n.kind.WellTagged := by
  obtain ⟨form, file, -, hheader⟩ := h
  have hkind := (Form.header_eq_ok hheader).2.2.2.1
  rcases hn : n.kind with selector | target | ⟨tag, text⟩
  · trivial
  · trivial
  · rw [hn] at hkind
    exact (kind_eq_other hkind).2

/-- A tag is a symbol of the list. -/
theorem DescribedBy.exists_symbol {elements : List SExp} {pos : Position} {n : Node} (h : n.DescribedBy elements pos)
    {tag : String} {text : Option String} (hn : n.kind = .other tag text) :
    ∃ pos', .atom (.symbol tag) pos' ∈ elements := by
  obtain ⟨form, file, hform, hheader⟩ := h
  have hkind := (Form.header_eq_ok hheader).2.2.2.1
  rw [hn] at hkind
  rw [(kind_eq_other hkind).1]
  exact Form.exists_head_of_split hform

theorem DescribedBy.line {elements : List SExp} {pos : Position} {n : Node} (h : n.DescribedBy elements pos) :
    n.location.line < wordBound ∨ n.location.line = pos.line := by
  obtain ⟨form, file, -, hheader⟩ := h
  exact Form.line_of_location (Form.header_eq_ok hheader).1

end Node

end StyleTree
