import StyleTree.Proofs.Node.Compact
import StyleTree.Proofs.Node.Layout
import StyleTree.Proofs.Node.Notation

/-!
# `Proofs.Node.Files` — how far the file of a text reaches

A reader is told a file for the nodes that name none. That file is handed down from a node to its children, and lost in
two ways: a node that names a file is in that file and hands it down instead, and a marker hands down the file that it
inherits from, whatever file it is in itself. So the file that a reader was told reaches the nodes that no name and no
marker cuts off, and no others.

To compare two readings of one text, a node is found by the numbers of the children that lead to it from the root, in
both trees, and the list that describes it is found in the expression by the same numbers.

## Contents
- **Paths.** `descend`, the end of a path from parent to child, and `descend_concat`, one step further.
- **The lists on a path.** `SExp.fields` and `SExp.childForms`, what a list holds; `SExp.formAt?`, the list at the end
  of a path, and `SExp.Exposed`, whether the file that a reader was told reaches it.
- **One reading.** `Node.at?`, and `Node.FiledBy`, how the file of a node comes about; `filedBy_of_denotes`.
- **Two readings.** `Node.unfiled`, a tree without its files, and `ofSExp_unfiled`, by induction on the expression;
  `filename_at`, by induction on the path.
- **Two files for a text.** `AlikeAt`, and `parse_in_two_files`.
-/

namespace StyleTree

/-! ## Paths -/

section Paths

variable {α : Type} (inside : α → List α)

/-- What is reached by going from parent to child, if there is a child of each number. -/
def descend (a : α) : List Nat → Option α
  | [] => some a
  | i :: path => (inside a)[i]?.bind fun b => descend b path

theorem descend_cons (a : α) (i : Nat) (path : List Nat) :
    descend inside a (i :: path) = (inside a)[i]?.bind fun b => descend inside b path :=
  rfl

/-- To follow a path is to follow its upper part and go on from there. -/
theorem descend_append (a : α) (above below : List Nat) :
    descend inside a (above ++ below) = (descend inside a above).bind fun b => descend inside b below := by
  induction above generalizing a with
  | nil => rfl
  | cons i above ih =>
    rw [List.cons_append, descend_cons, descend_cons]
    cases (inside a)[i]? with
    | none => rfl
    | some b => exact ih b

theorem descend_concat (a : α) (above : List Nat) (i : Nat) :
    descend inside a (above ++ [i]) = (descend inside a above).bind fun b => (inside b)[i]? := by
  rw [descend_append]
  refine Option.bind_congr fun b _ => ?_
  rw [descend_cons]
  exact Option.bind_fun_some _

end Paths

namespace SExp

/-! ## The lists on a path -/

/-- The fields among the elements behind a head: each keyword with the element behind it. -/
def fieldsIn : List SExp → List Field
  | .atom (.keyword name) pos :: value :: rest => ⟨name, pos, value⟩ :: fieldsIn rest
  | _ :: rest => fieldsIn rest
  | [] => []

/-- The lists among the elements behind a head, but for those behind a keyword. -/
def listsIn : List SExp → List SExp
  | .atom (.keyword _) _ :: _ :: rest => listsIn rest
  | .list elements pos :: rest => .list elements pos :: listsIn rest
  | _ :: rest => listsIn rest
  | [] => []

/-- The fields of a list. -/
def fields : SExp → List Field
  | .list (_ :: rest) _ => fieldsIn rest
  | _ => []

/-- The lists in a list that describe children. -/
def childForms : SExp → List SExp
  | .list (_ :: rest) _ => listsIn rest
  | _ => []

theorem fieldsIn_items (items : List Item) : fieldsIn (items.flatMap Item.elements) = items.filterMap Item.field? := by
  induction items with
  | nil => rfl
  | cons item items ih =>
    rw [List.flatMap_cons]
    cases item with
    | argument a pos plain =>
      show fieldsIn (.atom a pos :: items.flatMap Item.elements) = items.filterMap Item.field?
      rw [← ih]
      cases a with
      | keyword name => exact absurd rfl (plain name)
      | _ => rfl
    | field f => exact congrArg (f :: ·) ih
    | child elements pos => exact ih

theorem listsIn_items (items : List Item) : listsIn (items.flatMap Item.elements) = items.filterMap Item.child? := by
  induction items with
  | nil => rfl
  | cons item items ih =>
    rw [List.flatMap_cons]
    cases item with
    | argument a pos plain =>
      show listsIn (.atom a pos :: items.flatMap Item.elements) = items.filterMap Item.child?
      rw [← ih]
      cases a with
      | keyword name => exact absurd rfl (plain name)
      | _ => rfl
    | field f => exact ih
    | child elements pos => exact congrArg (SExp.list elements pos :: ·) ih

/-- The list at the end of a path. -/
def formAt? (e : SExp) (path : List Nat) : Option SExp :=
  descend childForms e path

/-- Whether the list names a file. -/
def NamesFile (e : SExp) : Prop :=
  ∃ field ∈ e.fields, field.name = "file"

/-- Whether the file of the root reaches the end of the path, if the root names none: no list on the path names a file,
    and none but the last describes a marker. -/
def Exposed (e : SExp) (path : List Nat) : Prop :=
  ∀ above description, above <+: path → e.formAt? above = some description →
    ¬ description.NamesFile ∧ (above ≠ path → description.head? ≠ some "inherit")

theorem exposed_nil {e : SExp} : e.Exposed [] ↔ ¬ e.NamesFile := by
  constructor
  · intro h
    exact (h [] e List.prefix_rfl rfl).1
  · intro h above description habove hdescription
    cases List.prefix_nil.1 habove
    cases hdescription
    exact ⟨h, fun hne => absurd rfl hne⟩

/-- The file that a reader was told gets past a node that names none and is no marker. -/
theorem exposed_cons {e c : SExp} {i : Nat} {path : List Nat} (hc : e.childForms[i]? = some c) :
    e.Exposed (i :: path) ↔ (¬ e.NamesFile ∧ e.head? ≠ some "inherit") ∧ c.Exposed path := by
  have hstep : ∀ below, e.formAt? (i :: below) = c.formAt? below := by
    intro below
    rw [formAt?, descend_cons, hc]
    rfl
  constructor
  · intro h
    have hself := h [] e List.nil_prefix rfl
    refine ⟨⟨hself.1, hself.2 (List.cons_ne_nil i path).symm⟩, ?_⟩
    intro above description habove hdescription
    have hinner := h (i :: above) description ((List.prefix_cons_inj i).2 habove) (by rw [hstep, hdescription])
    refine ⟨hinner.1, fun hne => hinner.2 ?_⟩
    simpa using hne
  · rintro ⟨hself, h⟩ above description habove hdescription
    rcases List.prefix_cons_iff.1 habove with rfl | ⟨below, rfl, hbelow⟩
    · cases hdescription
      exact ⟨hself.1, fun _ => hself.2⟩
    · rw [hstep] at hdescription
      have hinner := h below description hbelow hdescription
      refine ⟨hinner.1, fun hne => hinner.2 ?_⟩
      rintro rfl
      exact hne rfl

end SExp

namespace Node

/-! ## One reading -/

/-- The node at the end of a path. -/
def at? (n : Node) (path : List Nat) : Option Node :=
  descend children n path

/-- The file that a place in a tree is in if nothing there names one: at the root it is given, below a marker it is the
    file that the marker inherits from, and below any other node it is the file of that node. -/
inductive FileAround (file : String) (root : Node) : List Nat → String → Prop
  | root : FileAround file root [] file
  | inside {above : List Nat} {parent : Node} (i : Nat) : root.at? above = some parent →
      FileAround file root (above ++ [i]) (parent.target?.getD parent.location.filename)

/-- Whether the node at the end of the path is in the file that the list names, or else in the file around it. -/
def FiledBy (file : String) (root : Node) (path : List Nat) (description : SExp) (n : Node) : Prop :=
  ∃ around, FileAround file root path around ∧
    FieldTells description.fields "file" around SExp.IsText n.location.filename

section OneReading

variable {file : String} {e : SExp} {n : Node}

/-- A node is in the file that its list names, or else in the one that the reader was told. -/
theorem Denotes.filename (h : Denotes file e n) : FieldTells e.fields "file" file SExp.IsText n.location.filename := by
  cases h with
  | @list _ head headPos pos items kind inherited location children _ htold _ =>
    show FieldTells (SExp.fieldsIn (items.flatMap Item.elements)) "file" file SExp.IsText location.filename
    rw [SExp.fieldsIn_items]
    exact htold.file

/-- The lists inside a list denote the children, in the file that the node hands down. -/
theorem Denotes.children (h : Denotes file e n) :
    DenoteAll (n.kind.childFile n.location.filename) e.childForms n.children := by
  cases h with
  | @list _ head headPos pos items kind inherited location children _ _ hchildren =>
    show DenoteAll (kind.childFile location.filename) (SExp.listsIn (items.flatMap Item.elements)) children
    rw [SExp.listsIn_items]
    exact hchildren

/-- A list headed as a marker describes one, and no other list does. -/
theorem Denotes.target?_eq_none_iff (h : Denotes file e n) : n.target? = none ↔ e.head? ≠ some "inherit" := by
  cases h with
  | @list _ head headPos pos items kind inherited location children _ htold _ =>
    show target? ⟨kind, children, inherited, location⟩ = none ↔ some head ≠ some "inherit"
    have hkind : TellsKind head (items.findSome? Item.argument?) kind := htold.kind
    generalize items.findSome? Item.argument? = argument? at hkind
    cases hkind with
    | root | rule | unresolvedRule | marker => simp [target?]
    | text _ _ htag | noText _ htag | bare htag =>
      have hhead : head ≠ "inherit" := by
        rintro rfl
        simp at htag
      simp [target?, hhead]

/-- Expressions in a row denote nodes in a row, one by one. -/
theorem DenoteAll.getElem? {es : List SExp} {ns : List Node} (h : DenoteAll file es ns) (i : Nat) :
    Option.Rel (Denotes file) es[i]? ns[i]? := by
  induction es generalizing ns i with
  | nil =>
    cases h
    exact .none
  | cons e es ih =>
    cases h with
    | cons hfirst hlater =>
      cases i with
      | zero => exact .some hfirst
      | succ i => exact ih hlater i

/-- Expression and tree have the same paths, and what is at the end of one describes what is at the end of the other. -/
theorem Denotes.at? (h : Denotes file e n) (path : List Nat) :
    Option.Rel (fun description m => ∃ file', Denotes file' description m) (e.formAt? path) (n.at? path) := by
  induction path generalizing file e n with
  | nil => exact .some ⟨file, h⟩
  | cons i path ih =>
    rw [SExp.formAt?, Node.at?, descend_cons, descend_cons]
    have hchild := h.children.getElem? i
    generalize e.childForms[i]? = form?, n.children[i]? = child? at hchild
    cases hchild with
    | none => exact .none
    | some hchild => exact ih hchild

/-- **The file of a node** is the one that its list names, or else what the nodes around it make it. -/
theorem filedBy_of_denotes (h : Denotes file e n) {path : List Nat} {description : SExp} {m : Node}
    (hdescription : e.formAt? path = some description) (hm : n.at? path = some m) :
    FiledBy file n path description m := by
  rcases List.eq_nil_or_concat' path with rfl | ⟨above, i, rfl⟩
  · cases hdescription
    cases hm
    exact ⟨file, .root, h.filename⟩
  · rw [SExp.formAt?, descend_concat, Option.bind_eq_some_iff] at hdescription
    rw [Node.at?, descend_concat, Option.bind_eq_some_iff] at hm
    obtain ⟨around, haround, hdescription⟩ := hdescription
    obtain ⟨parent, hparent, hm⟩ := hm
    have hpair := h.at? above
    rw [SExp.formAt?, Node.at?, haround, hparent] at hpair
    obtain ⟨file', hdenotes⟩ := Option.rel_some_some.1 hpair
    have hchild := hdenotes.children.getElem? i
    rw [hdescription, hm] at hchild
    refine ⟨parent.target?.getD parent.location.filename, .inside i hparent, ?_⟩
    rw [← childFile_eq]
    exact (Option.rel_some_some.1 hchild).filename

end OneReading

/-! ## Two readings -/

/-- The tree as if its nodes were in no file. -/
def unfiled (n : Node) : Node :=
  n.relocate fun location => { location with filename := "" }

end Node

namespace Form

variable (form : Form) (f g : String) (pos : Position)

theorem location_unfiled :
    (form.location f pos).map Location.line = (form.location g pos).map Location.line := by
  rw [location_eq, location_eq]
  cases form.field? "file" with
  | some value => rfl
  | none =>
    cases (form.field? "line").elim (.ok pos.line) SExp.asNumber with
    | error error => rfl
    | ok line => rfl

/-- Which file a node is told does not matter to what else its list says. -/
theorem header_unfiled : (form.header f pos).map Node.unfiled = (form.header g pos).map Node.unfiled := by
  refine Except.map_bind_congr (form.location_unfiled f g pos) fun location location' hline => ?_
  cases form.inherited with
  | error error => rfl
  | ok inherited =>
    cases form.refuseUnknown with
    | error error => rfl
    | ok known =>
      cases form.kind pos with
      | error error => rfl
      | ok kind =>
        refine congrArg Except.ok (Node.relocate_eq_iff.2 ⟨rfl, rfl, ?_, rfl⟩)
        show Location.mk "" location.line = Location.mk "" location'.line
        rw [hline]

end Form

namespace Node

/-- If the lists inside a list describe the same nodes but for files, so do they in a row. -/
theorem ofElements_unfiled {es : List SExp} {f g : String}
    (h : ∀ e ∈ es, (ofSExp f e).map unfiled = (ofSExp g e).map unfiled) (taken : Bool) :
    (ofElements f taken es).map (List.map unfiled) = (ofElements g taken es).map (List.map unfiled) := by
  induction es generalizing taken with
  | nil => rfl
  | cons e es ih =>
    obtain ⟨hfirst, hothers⟩ := List.forall_mem_cons.1 h
    cases taken with
    | true =>
      rw [Form.ofElements_taken, Form.ofElements_taken]
      exact ih hothers false
    | false =>
      cases e with
      | atom a pos =>
        rw [Form.ofElements_atom, Form.ofElements_atom]
        exact ih hothers (SExp.atom a pos).isKeyword
      | list elements pos =>
        rw [Form.ofElements_list, Form.ofElements_list]
        refine Except.map_bind_congr hfirst fun child child' hchild => ?_
        refine Except.map_bind_congr (ih hothers false) fun children children' hchildren => ?_
        exact congrArg Except.ok (List.cons_eq_cons.2 ⟨hchild, hchildren⟩)

/-- **An expression describes the same tree in every file**, but for the files of its nodes, or it is refused for the
    same fault. -/
theorem ofSExp_unfiled (e : SExp) : ∀ f g : String, (ofSExp f e).map unfiled = (ofSExp g e).map unfiled := by
  induction e using SExp.elementInduction with
  | atom a pos =>
    intro f g
    rw [ofSExp, ofSExp]
  | list elements pos ih =>
    intro f g
    rw [Form.ofSExp_list, Form.ofSExp_list]
    refine Except.map_bind_congr (rfl : (Form.split elements pos).map id = _) ?_
    rintro form _ rfl
    refine Except.map_bind_congr (form.header_unfiled f g pos) fun node node' hnode => ?_
    obtain ⟨hkind, hinherited, hlocation, -⟩ := relocate_eq_iff.1 hnode
    -- The two nodes may hand down different files, so the children are compared for any two.
    have helements := @ofElements_unfiled elements (node.kind.childFile node.location.filename)
      (node'.kind.childFile node'.location.filename) (fun e he => ih e he _ _) false
    refine Except.map_bind_congr helements fun children children' hchildren => ?_
    exact congrArg Except.ok (relocate_eq_iff.2 ⟨hkind, hinherited, hlocation, hchildren⟩)

end Node

/-- What two readings of the fields find if they start from different values: these, or else the same. -/
theorem FieldTells.alike {α : Type} {fields : List Field} {name : String} {means : α → SExp → Prop}
    {missing missing' a b : α} (hmeans : ∀ {value}, means a value → means b value → a = b)
    (h : FieldTells fields name missing means a) (h' : FieldTells fields name missing' means b) :
    (¬ ∃ field ∈ fields, field.name = name) ∧ a = missing ∧ b = missing' ∨
      (∃ field ∈ fields, field.name = name) ∧ a = b := by
  cases h with
  | absent hnone =>
    have hno : ¬ ∃ field ∈ fields, field.name = name := fun ⟨field, hfield, hname⟩ => hnone field hfield hname
    cases h' with
    | absent => exact .inl ⟨hno, rfl, rfl⟩
    | first hfields _ hname _ =>
      rw [hfields] at hno
      exact absurd ⟨_, List.mem_append_cons_self, hname⟩ hno
  | @first before after field _ hfields hbefore hname hvalue =>
    have hfind := find?_of_first hfields hbefore hname
    have hsome : ∃ field ∈ fields, field.name = name := ⟨field, List.mem_of_find?_eq_some hfind, hname⟩
    cases h' with
    | absent hnone =>
      obtain ⟨field, hfield, hname⟩ := hsome
      exact absurd hname (hnone field hfield)
    | @first _ _ field' _ hfields' hbefore' hname' hvalue' =>
      rw [find?_of_first hfields' hbefore' hname'] at hfind
      cases hfind
      exact .inr ⟨hsome, hmeans hvalue hvalue'⟩

namespace Node

section TwoReadings

variable {f g : String} {e : SExp} {n m : Node}

/-- A node that names no file is in the one that the reader was told. -/
theorem filename_cases (hn : Denotes f e n) (hm : Denotes g e m) :
    ¬ e.NamesFile ∧ n.location.filename = f ∧ m.location.filename = g ∨
      e.NamesFile ∧ n.location.filename = m.location.filename := by
  refine FieldTells.alike ?_ hn.filename hm.filename
  rintro value ⟨pos, rfl⟩ ⟨pos', hvalue⟩
  exact Atom.string.inj (SExp.atom.inj hvalue).1

/-- A node that names no file and is no marker hands down the one that the reader was told. -/
theorem childFile_cases (hn : Denotes f e n) (hm : Denotes g e m) (hkind : n.kind = m.kind) :
    (¬ e.NamesFile ∧ e.head? ≠ some "inherit") ∧ n.kind.childFile n.location.filename = f ∧
        m.kind.childFile m.location.filename = g ∨
      ¬ (¬ e.NamesFile ∧ e.head? ≠ some "inherit") ∧
        n.kind.childFile n.location.filename = m.kind.childFile m.location.filename := by
  have htarget : n.target? = m.target? := by rw [target?, target?, hkind]
  rw [childFile_eq, childFile_eq, ← htarget, ← hn.target?_eq_none_iff]
  cases n.target? with
  | some target => exact .inr ⟨fun h => Option.some_ne_none target h.2, rfl⟩
  | none =>
    show _ ∧ n.location.filename = f ∧ m.location.filename = g ∨ _ ∧ n.location.filename = m.location.filename
    obtain ⟨hfile, hfiles⟩ | ⟨hfile, hsame⟩ := filename_cases hn hm
    · exact .inl ⟨⟨hfile, rfl⟩, hfiles⟩
    · exact .inr ⟨fun h => h.1 hfile, hsame⟩

/-- **The file that a reader is told reaches the exposed nodes and no others.** -/
theorem filename_at (hn : Denotes f e n) (hm : Denotes g e m) (hsame : n.unfiled = m.unfiled) {path : List Nat}
    {a b : Node} (ha : n.at? path = some a) (hb : m.at? path = some b) :
    e.Exposed path ∧ a.location.filename = f ∧ b.location.filename = g ∨
      ¬ e.Exposed path ∧ a.location.filename = b.location.filename := by
  induction path generalizing f g e n m with
  | nil =>
    cases ha
    cases hb
    rw [SExp.exposed_nil, not_not]
    exact filename_cases hn hm
  | cons i path ih =>
    rw [Node.at?, descend_cons, Option.bind_eq_some_iff] at ha hb
    obtain ⟨n', hn', ha⟩ := ha
    obtain ⟨m', hm', hb⟩ := hb
    obtain ⟨hkind, -, -, hchildren⟩ := relocate_eq_iff.1 hsame
    have hsame' : n'.unfiled = m'.unfiled := by
      have hboth := congrArg (·[i]?) hchildren
      simp only [List.getElem?_map, hn', hm', Option.map_some, Option.some.injEq] at hboth
      exact hboth
    have hnext := hn.children.getElem? i
    have hnext' := hm.children.getElem? i
    rw [hn'] at hnext
    rw [hm'] at hnext'
    cases hform : e.childForms[i]? with
    | none =>
      rw [hform] at hnext
      cases hnext
    | some c =>
      rw [hform] at hnext hnext'
      rw [SExp.exposed_cons hform]
      have hbelow := ih (Option.rel_some_some.1 hnext) (Option.rel_some_some.1 hnext') hsame' ha hb
      obtain ⟨hpass, hfile, hfile'⟩ | ⟨hstop, hfiles⟩ := childFile_cases hn hm hkind
      · rw [hfile, hfile'] at hbelow
        simpa only [hpass, not_false_eq_true, ne_eq, and_self, true_and] using hbelow
      · -- From here on both readings are told the same file.
        rw [hfiles] at hbelow
        refine .inr ⟨fun h => hstop h.1, ?_⟩
        obtain ⟨-, hleft, hright⟩ | ⟨-, heq⟩ := hbelow
        · rw [hleft, hright]
        · exact heq

end TwoReadings

/-! ## Two files for a text -/

/-- What two readings of an expression have in common at one place, if the first was told the one file and the second
    the other. -/
inductive AlikeAt (f g : String) (e : SExp) (n m : Node) (path : List Nat) : Prop
  /-- No list describes a node there, and there is none. -/
  | nowhere : e.formAt? path = none → n.at? path = none → m.at? path = none → AlikeAt f g e n m path
  /-- A list describes a node there. If the place is exposed, the nodes are in the files that were told. If not, they
      are in the same file. Either way they are in the file that the list names, or else in the file around them. -/
  | place {description : SExp} {a b : Node} : e.formAt? path = some description → n.at? path = some a →
      m.at? path = some b → (e.Exposed path → a.location.filename = f ∧ b.location.filename = g) →
      (¬ e.Exposed path → a.location.filename = b.location.filename) → FiledBy f n path description a →
      FiledBy g m path description b → AlikeAt f g e n m path

/-- Two readings of one expression are alike at the end of every path, by what the lists on the path say. -/
theorem alikeAt_of_denotes {f g : String} {e : SExp} {n m : Node} (hn : Denotes f e n) (hm : Denotes g e m)
    (hsame : n.unfiled = m.unfiled) (path : List Nat) : AlikeAt f g e n m path := by
  have hleft := hn.at? path
  have hright := hm.at? path
  cases hform : e.formAt? path with
  | none =>
    rw [hform] at hleft hright
    exact .nowhere hform hleft.eq_none hright.eq_none
  | some description =>
    rw [hform] at hleft hright
    obtain ⟨a, ha, -⟩ := hleft.exists_eq_some
    obtain ⟨b, hb, -⟩ := hright.exists_eq_some
    have hfiles := filename_at hn hm hsame ha hb
    refine .place hform ha hb ?_ ?_ (filedBy_of_denotes hn hform ha) (filedBy_of_denotes hm hform hb)
    · intro hexposed
      exact hfiles.elim (·.2) fun h => absurd hexposed h.1
    · intro hhidden
      exact hfiles.elim (fun h => absurd h.1 hhidden) (·.2)

/-- **The file of a text reaches exactly the nodes it should.** Read a text twice, told two files. Either both readings
    fail with the same error, or both come to a tree, and the trees are alike but for files. These are the files that
    were told, wherever neither the node nor one around it names a file and no marker is around it. Everywhere else a
    node is in the same file in both trees: the one that it names, or else the one that its parent inherits from, if
    that is a marker, and otherwise the file of its parent. -/
theorem parse_in_two_files (text f g : String) :
    (∃ error, parse text f = .error error ∧ parse text g = .error error) ∨
      ∃ e n m, SExp.parse text = .ok e ∧ parse text f = .ok n ∧ parse text g = .ok m ∧ n.unfiled = m.unfiled ∧
        ∀ path, AlikeAt f g e n m path := by
  rw [parse_eq_bind, parse_eq_bind]
  cases hread : SExp.parse text with
  | error error => exact .inl ⟨error, rfl, rfl⟩
  | ok e =>
    show (∃ error, ofSExp f e = .error error ∧ ofSExp g e = .error error) ∨
      ∃ e' n m, Except.ok e = .ok e' ∧ ofSExp f e = .ok n ∧ ofSExp g e = .ok m ∧ n.unfiled = m.unfiled ∧
        ∀ path, AlikeAt f g e' n m path
    obtain ⟨error, hn, hm⟩ | ⟨n, m, hn, hm, hsame⟩ := Except.map_eq_map_cases (ofSExp_unfiled e f g)
    · exact .inl ⟨error, hn, hm⟩
    · have halike := alikeAt_of_denotes (denotes_of_ofSExp e hn) (denotes_of_ofSExp e hm) hsame
      exact .inr ⟨e, n, m, rfl, hn, hm, hsame, halike⟩

/-- The root and the node beside the marker are in the file that the reader was told. The marker names another, and what
    is inside comes from the file that it inherits from. -/
example : (parse "(stylesheet (inherit \"b\" :file \"c\" (p)) (q))" "f").map
    (fun n => n.preorder.map fun m => m.location.filename) = .ok ["f", "c", "b", "f"] := by
  cbv

end Node

end StyleTree
