import StyleTree.Node.ToSExp
import StyleTree.Proofs.Node.Form
import StyleTree.Proofs.Node.Walk

/-!
# `Proofs.Node.Written` — the expression written for a tree

A tree is written as a form of which the reader finds all parts again (`header_of_unplaced`). What the form leaves out,
the reader adds: the file of a node is left out only where the reader assumes it. So an expression that is written for a
tree describes the tree (`ofSExp_of_unplaced`), provided that no node of it is written like one of another kind
(`Kind.WellTagged`).
-/

namespace StyleTree

namespace Node

/-! ## The form -/

/-- The fields that are written for a node. -/
def fields (showLocations : Bool) (assumed : Option String) (n : Node) : List Field :=
  (if showLocations then
    (if assumed = some n.location.filename then [] else [⟨"file", .synthetic, .string n.location.filename⟩])
      ++ [⟨"line", .synthetic, .number n.location.line⟩]
  else [])
    ++ if n.inherited then [⟨"inherited", .synthetic, .symbol "true"⟩] else []

/-- The form that is written for a node. -/
def form (showLocations : Bool) (assumed : Option String) (n : Node) : Form :=
  ⟨n.kind.name, n.kind.argument.head?, n.fields showLocations assumed,
    toSExps showLocations (n.kind.childFile n.location.filename) n.children⟩

theorem toSExps_eq_map (showLocations : Bool) (file : String) (ns : List Node) :
    toSExps showLocations file ns = ns.map (toSExp showLocations (some file)) := by
  induction ns with
  | nil => rfl
  | cons n ns ih => rw [toSExps, ih, List.map_cons]

theorem isList_toSExp (showLocations : Bool) (assumed : Option String) (n : Node) :
    (n.toSExp showLocations assumed).isList = true := by
  cases n
  rfl

/-- A tree is written as the elements of its form. -/
theorem toSExp_eq (showLocations : Bool) (assumed : Option String) (n : Node) :
    n.toSExp showLocations assumed = .list ((n.form showLocations assumed).elements .synthetic) .synthetic := by
  obtain ⟨kind, children, inherited, location⟩ := n
  have hargument : kind.argument.head?.toList = kind.argument := by
    rcases kind with (_ | _) | _ | ⟨_, (_ | _)⟩ <;> rfl
  have hfields : (fields showLocations assumed ⟨kind, children, inherited, location⟩).flatMap Field.elements
      = (if showLocations then locationFields assumed location else []) ++ inheritedField inherited := by
    unfold fields locationFields inheritedField
    rw [List.flatMap_append]
    congr 1
    · split
      · rw [List.flatMap_append]
        split <;> rfl
      · rfl
    · split <;> rfl
  rw [toSExp, Form.elements, form, hargument, hfields]
  simp only [List.cons_append, List.append_assoc]
  rfl

/-- The argument that is written for a node is an atom and no keyword, and its children are lists. -/
theorem form_proper (showLocations : Bool) (assumed : Option String) (n : Node) :
    (n.form showLocations assumed).Proper where
  argument e he := by
    change e ∈ n.kind.argument.head? at he
    rcases hkind : n.kind with (_ | _) | _ | ⟨_, (_ | _)⟩ <;> rw [hkind] at he <;> cases he <;> exact ⟨rfl, rfl⟩
  children e he := by
    change e ∈ toSExps _ _ n.children at he
    rw [toSExps_eq_map, List.mem_map] at he
    obtain ⟨child, -, rfl⟩ := he
    exact isList_toSExp _ _ child

/-- What is written for a tree has no places yet. -/
theorem unplaced_toSExp (showLocations : Bool) (n : Node) : ∀ assumed : Option String,
    (n.toSExp showLocations assumed).unplaced = n.toSExp showLocations assumed := by
  induction n using childInduction with
  | step n ih =>
    intro assumed
    have hargument : n.kind.argument.head?.toList.map SExp.unplaced = n.kind.argument.head?.toList := by
      rcases n.kind with (_ | _) | _ | ⟨_, (_ | _)⟩ <;> rfl
    have hfields : ((n.fields showLocations assumed).flatMap Field.elements).map SExp.unplaced
        = (n.fields showLocations assumed).flatMap Field.elements := by
      by_cases hfile : assumed = some n.location.filename <;> cases showLocations <;> cases hflag : n.inherited <;>
        simp [fields, hfile, hflag, Field.elements, SExp.string, SExp.number, SExp.symbol]
    have hchildren : (toSExps showLocations (n.kind.childFile n.location.filename) n.children).map SExp.unplaced
        = toSExps showLocations (n.kind.childFile n.location.filename) n.children := by
      rw [toSExps_eq_map, List.map_map]
      exact List.map_congr_left fun child hchild => ih child hchild _
    rw [toSExp_eq, SExp.unplaced_list, Form.elements, form, List.map_cons, List.map_append, List.map_append, hargument,
      hfields, hchildren, SExp.unplaced_atom]

end Node

/-! ## The header -/

namespace Form

theorem field?_unplaced (form : Form) (name : String) :
    form.unplaced.field? name = (form.field? name).map SExp.unplaced := by
  simp only [field?, unplaced, List.find?_map, Option.map_map]
  rfl

/-- What is found under a name in a form without places is found in the form itself. -/
theorem field?_of_unplaced {placed form : Form} (h : placed.unplaced = form) {name : String} {value : SExp}
    (hvalue : form.field? name = some value) : ∃ e, placed.field? name = some e ∧ e.unplaced = value := by
  rw [← h, field?_unplaced, Option.map_eq_some_iff] at hvalue
  exact hvalue

theorem field?_of_unplaced_none {placed form : Form} (h : placed.unplaced = form) {name : String}
    (hnone : form.field? name = none) : placed.field? name = none := by
  rwa [← h, field?_unplaced, Option.map_eq_none_iff] at hnone

end Form

namespace Node

/-- A kind that is not written like another one: only rules and markers are called so, and only a stylesheet
    without text is called a stylesheet. -/
def Kind.WellTagged : Kind → Prop
  | .rule _ | .inherit _ => True
  | .other tag text => tag ≠ "rule" ∧ tag ≠ "inherit" ∧ (tag = rootTag → text = none)

/-- The decimal numeral of a word reads back. -/
theorem unsigned?_decimal {line : Nat} (h : line < wordBound) : unsigned? (decimal line) = some line := by
  have hplus : ∀ digits, decimal line = '+' :: digits → False := by
    intro digits hdigits
    have hdigit : '+'.isDigit = true :=
      Nat.isDigit_of_mem_toDigits (by decide) (by decide) (hdigits ▸ List.mem_cons_self : '+' ∈ decimal line)
    revert hdigit
    decide
  rw [← digitsValue?_decimal h]
  unfold unsigned?
  split
  · next heq => exact (hplus _ heq).elim
  · rfl

/-- A file is written only if it is not the one that is assumed. -/
theorem field?_file (assumed : Option String) (n : Node) :
    (n.form true assumed).field? "file"
      = if assumed = some n.location.filename then none else some (.string n.location.filename) := by
  by_cases hfile : assumed = some n.location.filename <;> cases hflag : n.inherited <;>
    simp [Form.field?, form, fields, hfile, hflag]

theorem field?_line (assumed : Option String) (n : Node) :
    (n.form true assumed).field? "line" = some (.number n.location.line) := by
  by_cases hfile : assumed = some n.location.filename <;> simp [Form.field?, form, fields, hfile]

theorem field?_inherited (showLocations : Bool) (assumed : Option String) (n : Node) :
    (n.form showLocations assumed).field? "inherited" = if n.inherited then some (.symbol "true") else none := by
  by_cases hfile : assumed = some n.location.filename <;> cases showLocations <;> cases hflag : n.inherited <;>
    simp [Form.field?, form, fields, hfile, hflag]

theorem name_mem_knownFields {showLocations : Bool} {assumed : Option String} {n : Node} {field : Field}
    (h : field ∈ n.fields showLocations assumed) : field.name ∈ Form.knownFields := by
  revert h
  by_cases hfile : assumed = some n.location.filename <;> cases showLocations <;> cases hflag : n.inherited <;>
    simp +contextual [fields, hfile, hflag, Form.knownFields, or_imp]

section Header

variable {n : Node} {placed : Form} {assumed : Option String}

/-- The location is found, in so far as it is not assumed. -/
theorem location_of_unplaced (h : placed.unplaced = n.form true assumed) {file : String}
    (hassumed : assumed = none ∨ assumed = some file) (hline : n.location.line < wordBound) (pos : Position) :
    placed.location file pos = .ok n.location := by
  obtain ⟨line, hfound, hvalue⟩ := Form.field?_of_unplaced h (field?_line assumed n)
  have hnumber : line.asNumber = .ok n.location.line := by
    rw [← eq_ok_iff_of_withoutPlaces line.asNumber_unplaced, hvalue, SExp.number, SExp.asNumber,
      String.toList_ofList, unsigned?_decimal hline]
  have hfile := field?_file assumed n
  by_cases hsame : assumed = some n.location.filename
  · rw [if_pos hsame] at hfile
    -- The file is left out only where the reader assumes the same one.
    have hfilename : file = n.location.filename := by
      rcases hassumed with hassumed | hassumed <;> rw [hassumed] at hsame <;> cases hsame
      rfl
    simp only [Form.location, Form.field?_of_unplaced_none h hfile, hfound, hnumber, hfilename]
    rfl
  · rw [if_neg hsame] at hfile
    obtain ⟨name, hname, hvalue⟩ := Form.field?_of_unplaced h hfile
    have hstring : name.asString = .ok n.location.filename := by
      rw [← eq_ok_iff_of_withoutPlaces name.asString_unplaced, hvalue]
      rfl
    simp only [Form.location, hname, hstring, hfound, hnumber]
    rfl

variable {showLocations : Bool}

theorem inherited_of_unplaced (h : placed.unplaced = n.form showLocations assumed) :
    placed.inherited = .ok n.inherited := by
  have hfield := field?_inherited showLocations assumed n
  cases hflag : n.inherited with
  | false =>
    rw [hflag, if_neg (by simp)] at hfield
    rw [Form.inherited, Form.field?_of_unplaced_none h hfield]
  | true =>
    rw [hflag, if_pos rfl] at hfield
    obtain ⟨value, hfound, hvalue⟩ := Form.field?_of_unplaced h hfield
    have hbool : value.asBool = .ok true := by
      rw [← eq_ok_iff_of_withoutPlaces value.asBool_unplaced, hvalue]
      rfl
    rw [Form.inherited, hfound]
    exact hbool

theorem refuseUnknown_of_unplaced (h : placed.unplaced = n.form showLocations assumed) :
    placed.refuseUnknown = .ok () := by
  have hfields : placed.fields.map Field.unplaced = n.fields showLocations assumed := congrArg Form.fields h
  have hnone : placed.fields.find? (fun field => !Form.knownFields.contains field.name) = none := by
    rw [List.find?_eq_none]
    intro field hfield
    have hwritten : field.unplaced ∈ n.fields showLocations assumed := hfields ▸ List.mem_map_of_mem hfield
    have hknown : field.unplaced.name ∈ Form.knownFields := name_mem_knownFields hwritten
    simpa [Field.unplaced] using hknown
  rw [Form.refuseUnknown, hnone]

/-- What a node is is found, if it is not written like something else. -/
theorem kind_of_unplaced (h : placed.unplaced = n.form showLocations assumed) (hkind : n.kind.WellTagged)
    (pos : Position) : placed.kind pos = .ok n.kind := by
  have hhead : placed.head = n.kind.name := congrArg Form.head h
  have hargument : placed.argument?.map SExp.unplaced = n.kind.argument.head? := congrArg Form.argument? h
  rcases hn : n.kind with selector | target | ⟨tag, text⟩
  · rw [hn] at hhead hargument
    change placed.head = "rule" at hhead
    have hwritten : (Kind.rule selector).argument.head? = some (selector.elim .nil .string) := by
      cases selector <;> rfl
    obtain ⟨argument, hfound, hvalue⟩ := Option.map_eq_some_iff.1 (hargument.trans hwritten)
    have hselector : argument.asOptionalString = .ok selector := by
      rw [← eq_ok_iff_of_withoutPlaces argument.asOptionalString_unplaced, hvalue]
      cases selector <;> rfl
    rw [Form.kind, hhead, if_neg (by decide), if_pos rfl, Form.requireArgument, hfound]
    simp only [bind, Except.bind, hselector]
    rfl
  · rw [hn] at hhead hargument
    change placed.head = "inherit" at hhead
    obtain ⟨argument, hfound, hvalue⟩ := Option.map_eq_some_iff.1 hargument
    have htarget : argument.asString = .ok target := by
      rw [← eq_ok_iff_of_withoutPlaces argument.asString_unplaced, hvalue]
      rfl
    rw [Form.kind, hhead, if_neg (by decide), if_neg (by decide), if_pos rfl, Form.requireArgument, hfound]
    simp only [bind, Except.bind, htarget]
    rfl
  · -- The names of the other kinds come first, and a stylesheet may have no argument.
    rw [hn] at hhead hargument hkind
    obtain ⟨hrule, hinherit, hroot⟩ := hkind
    change placed.head = tag at hhead
    by_cases htag : tag = rootTag
    · rw [hroot htag] at hargument
      rw [Form.kind, hhead, if_pos htag, Option.map_eq_none_iff.1 hargument, hroot htag, htag]
    · rw [Form.kind, hhead, if_neg htag, if_neg hrule, if_neg hinherit]
      cases text with
      | none =>
        rw [Option.map_eq_none_iff.1 hargument]
        rfl
      | some text =>
        obtain ⟨argument, hfound, hvalue⟩ := Option.map_eq_some_iff.1 hargument
        have htext : argument.asOptionalString = .ok (some text) := by
          rw [← eq_ok_iff_of_withoutPlaces argument.asOptionalString_unplaced, hvalue]
          rfl
        rw [hfound]
        simp only [htext]
        rfl

/-- **The reader finds the node in its form.** -/
theorem header_of_unplaced (h : placed.unplaced = n.form true assumed) {file : String}
    (hassumed : assumed = none ∨ assumed = some file) (hline : n.location.line < wordBound)
    (hkind : n.kind.WellTagged) (pos : Position) :
    placed.header file pos = .ok { kind := n.kind, inherited := n.inherited, location := n.location } := by
  simp only [Form.header, location_of_unplaced h hassumed hline, inherited_of_unplaced h, refuseUnknown_of_unplaced h,
    kind_of_unplaced h hkind]
  rfl

end Header

/-! ## The tree -/

/-- The form that the reader finds in a list is the written one, but for its places. -/
theorem exists_split_of_unplaced {showLocations : Bool} {assumed : Option String} {n : Node} {e : SExp}
    (h : e.unplaced = n.toSExp showLocations assumed) : ∃ elements pos placed, e = .list elements pos ∧
      Form.split elements pos = .ok placed ∧ placed.unplaced = n.form showLocations assumed := by
  rw [toSExp_eq] at h
  cases e with
  | atom a pos => cases h
  | list elements pos =>
    rw [SExp.unplaced_list, SExp.list.injEq] at h
    have hsplit := Form.split_unplaced elements pos .synthetic
    rw [h.1, Form.split_elements (form_proper showLocations assumed n)] at hsplit
    obtain ⟨placed, hplaced, hform⟩ := withoutPlaces_eq_ok.1 hsplit.symm
    exact ⟨elements, pos, placed, rfl, hplaced, hform⟩

/-- If each child is told by what is written for it, so are all of them. What the writer assumed need not be what the
    reader does. -/
theorem ofElements_of_unplaced {told : Node → Node → Prop} {showLocations : Bool} {assumed file : String}
    {ns : List Node} (h : ∀ n ∈ ns, ∀ e : SExp, e.unplaced = n.toSExp showLocations (some assumed) →
      ∃ read, ofSExp file e = .ok read ∧ told n read) :
    ∀ {es : List SExp}, es.map SExp.unplaced = toSExps showLocations assumed ns →
      ∃ reads, ofElements file false es = .ok reads ∧ List.Forall₂ told ns reads := by
  induction ns with
  | nil =>
    intro es hes
    rw [toSExps, List.map_eq_nil_iff] at hes
    rw [hes, ofElements]
    exact ⟨[], rfl, .nil⟩
  | cons n ns ih =>
    intro es hes
    rw [toSExps, List.map_eq_cons_iff] at hes
    obtain ⟨e, es, rfl, he, hes⟩ := hes
    obtain ⟨elements, pos, -, rfl, -⟩ := exists_split_of_unplaced he
    obtain ⟨read, hread, htold⟩ := h n List.mem_cons_self _ he
    obtain ⟨reads, hreads, hall⟩ := ih (fun m hm => h m (List.mem_cons_of_mem _ hm)) hes
    rw [Form.ofElements_list, hread, hreads]
    exact ⟨read :: reads, rfl, .cons htold hall⟩

/-- **An expression that is written for a tree describes the tree**, wherever its parts stand, if the reader
    assumes the file that the writer left out. -/
theorem ofSExp_of_unplaced (n : Node) : ∀ {e : SExp} {file : String} {assumed : Option String},
    assumed = none ∨ assumed = some file → (∀ m ∈ n.preorder, m.location.line < wordBound) →
      (∀ m ∈ n.preorder, m.kind.WellTagged) → e.unplaced = n.toSExp true assumed → ofSExp file e = .ok n := by
  induction n using childInduction with
  | step n ih =>
    intro e file assumed hassumed hlines htags he
    obtain ⟨elements, pos, placed, rfl, hplaced, hform⟩ := exists_split_of_unplaced he
    have hroot : n ∈ n.preorder := mem_preorder_iff.2 (.inl rfl)
    have hheader := header_of_unplaced hform hassumed (hlines n hroot) (htags n hroot) pos
    have hchild : ∀ child ∈ n.children, ∀ e : SExp,
        e.unplaced = child.toSExp true (some (n.kind.childFile n.location.filename)) →
          ∃ read, ofSExp (n.kind.childFile n.location.filename) e = .ok read ∧ child = read := by
      intro child hchild e he
      have hbelow : ∀ m ∈ child.preorder, m ∈ n.preorder := fun m hm => mem_preorder_iff.2 (.inr ⟨child, hchild, hm⟩)
      exact ⟨child, ih child hchild (.inr rfl) (fun m hm => hlines m (hbelow m hm)) (fun m hm => htags m (hbelow m hm))
        he, rfl⟩
    -- The reader takes the children from all elements, which comes to the same.
    have hchildren : ofElements (n.kind.childFile n.location.filename) false elements = .ok n.children := by
      obtain ⟨reads, hreads, hall⟩ := ofElements_of_unplaced hchild (congrArg Form.children hform)
      rw [List.forall₂_eq_eq_eq] at hall
      rw [Form.ofElements_of_split _ hplaced, hall]
      exact hreads
    rw [Form.ofSExp_list, hplaced]
    show (placed.header file pos >>= _) = _
    rw [hheader]
    show (ofElements (n.kind.childFile n.location.filename) false elements >>= _) = _
    rw [hchildren]
    cases n
    rfl

end Node

end StyleTree
