import StyleTree.Proofs.Node.Blocks
import StyleTree.Proofs.Node.Lines
import StyleTree.Proofs.Node.Locations
import StyleTree.Proofs.Node.Walk
import StyleTree.Proofs.Node.RoundTrip

/-!
# `Proofs.Node.Compact` — what is lost without locations

A tree can be written without the locations of its nodes. What a reader makes of that text is the tree with other
locations: each node is in the file that the nearest marker around it names, since that is what a reader assumes
(`FiledIn`), and on the line where its list begins. A tree is written one node to a line, so that is the number of the
node.

The expression is made of blocks (`block_toSExp`) and names no line, hence the lines; what a reader makes of it is
`exists_of_compact`, and the text is the subject of `parse_print_compact`.
-/

namespace StyleTree

namespace Node

/-! ## What is written -/

section Written

variable (assumed : Option String) (n : Node)

/-- What is written in front of the children of a node, without its location. -/
def front : List SExp :=
  .symbol n.kind.name :: (n.kind.argument.head?.toList ++ (n.fields false assumed).flatMap Field.elements)

theorem toSExp_eq_front : n.toSExp false assumed
    = .list (n.front assumed ++ toSExps false (n.kind.childFile n.location.filename) n.children) .synthetic := by
  rw [toSExp_eq, Form.elements, ← List.append_assoc, ← List.cons_append]
  rfl

theorem isList_of_mem_front {e : SExp} (he : e ∈ n.front assumed) : e.isList = false := by
  rcases List.mem_cons.1 he with rfl | he
  · rfl
  rcases List.mem_append.1 he with he | he
  · exact ((form_proper false assumed n).argument e (Option.mem_toList.1 he)).1
  · cases hflag : n.inherited with
    | false => simp [fields, hflag] at he
    | true =>
      simp only [fields, hflag, Bool.false_eq_true, if_false, if_true, List.nil_append, List.flatMap_singleton,
        Field.elements, List.mem_cons, List.not_mem_nil, or_false] at he
      rcases he with rfl | rfl <;> rfl

/-- Every keyword in front has its value there. -/
theorem taking_front : SExp.taking false (n.front assumed) = false := by
  have hargument : ∀ e ∈ n.kind.argument.head?, e.isKeyword = false := fun e he =>
    ((form_proper false assumed n).argument e he).2
  have hname : ∀ name, (SExp.symbol name).isKeyword = false := fun _ => rfl
  have hfield : (SExp.atom (.keyword "inherited") .synthetic).isKeyword = true := rfl
  unfold front SExp.taking
  cases hhead : n.kind.argument.head? with
  | none => cases hflag : n.inherited <;> simp [fields, hflag, Field.elements, hname, hfield]
  | some e => cases hflag : n.inherited <;> simp [fields, hflag, Field.elements, hname, hfield, hargument e hhead]

theorem field?_line_of_compact : (n.form false assumed).field? "line" = none := by
  cases hflag : n.inherited <;> simp [Form.field?, form, fields, hflag]

theorem field?_file_of_compact : (n.form false assumed).field? "file" = none := by
  cases hflag : n.inherited <;> simp [Form.field?, form, fields, hflag]

end Written

theorem exists_atom_of_readable {e : SExp} (hlist : e.isList = false) (h : e.Readable) :
    ∃ a pos, e = .atom a pos ∧ a.OneLine := by
  cases e with
  | list elements pos => cases hlist
  | atom a pos => exact ⟨a, pos, rfl, Atom.oneLine_of_readable (SExp.readable_atom.1 h)⟩

/-- **A tree is written as a block**, and so are the trees inside it. -/
theorem block_toSExp (n : Node) : ∀ assumed : Option String, (∀ m ∈ n.preorder, m.kind.Readable) →
    (n.toSExp false assumed).Block := by
  induction n using childInduction with
  | step n ih =>
    intro assumed hkinds
    have hreadable := readable_toSExp false n assumed hkinds
    rw [toSExp_eq_front, SExp.readable_list] at hreadable
    rw [toSExp_eq_front]
    refine .list ?_ (n.taking_front assumed) ?_
    · intro e he
      exact exists_atom_of_readable (n.isList_of_mem_front assumed he) (hreadable e (List.mem_append_left _ he))
    · intro e he
      rw [toSExps_eq_map] at he
      obtain ⟨child, hchild, rfl⟩ := List.mem_map.1 he
      exact ih child hchild _ fun m hm => hkinds m (mem_preorder_of_child hchild hm)

/-- No list that is written for a node names a line. -/
theorem namedLine?_of_compact (n : Node) : ∀ (assumed : Option String),
    ∀ description ∈ (n.toSExp false assumed).descriptions, description.namedLine? = none := by
  induction n using childInduction with
  | step n ih =>
    intro assumed description hdescription
    rw [toSExp_eq_front, SExp.descriptions] at hdescription
    rcases List.mem_cons.1 hdescription with rfl | hdescription
    · have hsplit := Form.split_elements (form_proper false assumed n) .synthetic .synthetic
      have hnamed := SExp.namedLine?_of_split hsplit
      rw [← toSExp_eq_front, toSExp_eq, hnamed, field?_line_of_compact]
      rfl
    · obtain ⟨e, he, hdescription⟩ := SExp.mem_descriptionsIn hdescription
      rcases List.mem_append.1 he with he | he
      · cases e with
        | list elements pos => cases n.isList_of_mem_front assumed he
        | atom a pos =>
          rw [SExp.descriptions] at hdescription
          cases hdescription
      · rw [toSExps_eq_map] at he
        obtain ⟨child, hchild, rfl⟩ := List.mem_map.1 he
        exact ih child hchild _ description hdescription

/-! ## Files -/

/-- The file that a marker inherits from. -/
def target? (n : Node) : Option String :=
  match n.kind with
  | .inherit target => some target
  | .rule _ | .other _ _ => none

/-- Whether every node is in the file that the nearest marker around it inherits from, or else in the given one. -/
def FiledIn (file : String) (root : Node) : Prop :=
  ∀ place ∈ root.postorder, place.1.location.filename = (place.2.findSome? target?).getD file

theorem childFile_eq (n : Node) (file : String) : n.kind.childFile file = (n.target?).getD file := by
  unfold target?
  cases n.kind <;> rfl

/-- If the children are in the files that a reader assumes for them, and the node is too, so are all nodes. -/
theorem filedIn_of_children {n : Node} {file : String} (hself : n.location.filename = file)
    (hchildren : ∀ child ∈ n.children, FiledIn (n.kind.childFile file) child) : FiledIn file n := by
  intro place hplace
  rw [postorder_eq] at hplace
  rcases List.mem_append.1 hplace with hplace | hplace
  · obtain ⟨⟨m, inside⟩, hm, rfl⟩ := List.mem_map.1 hplace
    rw [postorderAll_eq_flatMap] at hm
    obtain ⟨child, hchild, hm⟩ := List.mem_flatMap.1 hm
    have hfile := hchildren child hchild _ hm
    -- The node is the last that is asked, and it is asked only if no marker is nearer.
    rw [childFile_eq] at hfile
    show m.location.filename = ((inside ++ [n]).findSome? target?).getD file
    rw [hfile, List.findSome?_append, List.findSome?_singleton]
    cases inside.findSome? target? <;> rfl
  · rw [List.mem_singleton.1 hplace]
    exact hself

/-! ## The tree -/

/-- The tree with all its locations made alike. -/
def unlocated (n : Node) : Node :=
  n.relocate fun _ => .anonymous 0

/-- Of a node that is written without its location a reader makes the node in the file it assumes, on the line where
    the list begins. -/
theorem header_of_compact {n : Node} {placed : Form} {assumed : Option String}
    (h : placed.unplaced = n.form false assumed) (hkind : n.kind.WellTagged) (file : String) (pos : Position) :
    placed.header file pos = .ok { kind := n.kind, inherited := n.inherited, location := ⟨file, pos.line⟩ } := by
  have hlocation : placed.location file pos = .ok ⟨file, pos.line⟩ := by
    rw [Form.location_eq, Form.field?_of_unplaced_none h (n.field?_file_of_compact assumed),
      Form.field?_of_unplaced_none h (n.field?_line_of_compact assumed)]
    rfl
  simp only [Form.header, hlocation, inherited_of_unplaced h, refuseUnknown_of_unplaced h, kind_of_unplaced h hkind]
  rfl

/-- **An expression that is written without locations describes the tree with other ones**: with the files that a reader
    assumes. -/
theorem exists_of_compact (n : Node) : ∀ {e : SExp} {file : String} {assumed : Option String},
    (∀ m ∈ n.preorder, m.kind.WellTagged) → e.unplaced = n.toSExp false assumed →
      ∃ r, ofSExp file e = .ok r ∧ n.unlocated = r.unlocated ∧ FiledIn file r := by
  induction n using childInduction with
  | step n ih =>
    intro e file assumed htags he
    obtain ⟨elements, pos, placed, rfl, hplaced, hform⟩ := exists_split_of_unplaced he
    have hheader := header_of_compact hform (htags n (mem_preorder_self n)) file pos
    have hchild : ∀ child ∈ n.children, ∀ e : SExp,
        e.unplaced = child.toSExp false (some (n.kind.childFile n.location.filename)) →
          ∃ r, ofSExp (n.kind.childFile file) e = .ok r ∧
            child.unlocated = r.unlocated ∧ FiledIn (n.kind.childFile file) r := by
      intro child hchild e he
      exact ih child hchild (fun m hm => htags m (mem_preorder_of_child hchild hm)) he
    obtain ⟨reads, hreads, hall⟩ := ofElements_of_unplaced hchild (congrArg Form.children hform)
    have hchildren : ofElements (n.kind.childFile file) false elements = .ok reads := by
      rw [Form.ofElements_of_split _ hplaced]
      exact hreads
    refine ⟨{ kind := n.kind, children := reads, inherited := n.inherited, location := ⟨file, pos.line⟩ }, ?_, ?_, ?_⟩
    · rw [Form.ofSExp_list, hplaced]
      show (placed.header file pos >>= _) = _
      rw [hheader]
      show (ofElements (n.kind.childFile file) false elements >>= _) = _
      rw [hchildren]
      rfl
    · refine relocate_eq_iff.2 ⟨rfl, rfl, rfl, ?_⟩
      rw [← List.forall₂_eq_eq_eq, List.forall₂_map_left_iff, List.forall₂_map_right_iff]
      exact hall.imp fun _ _ htold => htold.1
    · refine filedIn_of_children rfl fun child hchild => ?_
      obtain ⟨_, -, -, hfiled⟩ := hall.exists_of_mem_right hchild
      exact hfiled

/-! ## The text -/

/-- A tree is read from its lists, and these are on consecutive lines. -/
theorem lines_of_compact {n r : Node} {indent : Nat} {file : String} (hkinds : ∀ m ∈ n.preorder, m.kind.Readable)
    (h : ofSExp file ((n.toSExp false none).printedAt indent 0 .start) = .ok r) :
    r.preorder.map (fun m => m.location.line) = List.range' 1 r.preorder.length := by
  have hplaces : ((n.toSExp false none).printedAt indent 0 .start).unplaced = (n.toSExp false none).unplaced :=
    SExp.unplaced_printedAt indent 0 .start _
  generalize hprinted : (n.toSExp false none).printedAt indent 0 .start = printed at h hplaces
  -- No list names a line, so every node is on the line of its list.
  have hnamed : ∀ description ∈ printed.descriptions, description.namedLine? = none := by
    intro description hdescription
    have hmem := List.mem_map_of_mem (f := SExp.namedLine?) hdescription
    rw [SExp.map_namedLine?_of_unplaced hplaces] at hmem
    obtain ⟨written, hwritten, hsame⟩ := List.mem_map.1 hmem
    rw [← hsame]
    exact namedLine?_of_compact n none written hwritten
  have hown : printed.descriptions.map SExp.nodeLine = printed.descriptions.map (·.position.line) :=
    List.map_congr_left fun description hdescription => by rw [SExp.nodeLine, hnamed description hdescription]; rfl
  have hconsecutive := SExp.lines_printedAt (block_toSExp n none hkinds) indent 0 .start
  rw [hprinted, ← hown, ← lines_of_ofSExp h] at hconsecutive
  have hlength := congrArg List.length hconsecutive
  rw [List.length_map, List.length_range'] at hlength
  rw [hconsecutive, hlength]
  rfl

/-- **Without locations a tree loses its locations and nothing else.** If its kinds can be read, then its text reads
    back, whatever the indentation and the file: as a tree of the same shape, kinds and flags, whose nodes are on
    consecutive lines in the order of a visit, each in the file of the nearest marker around it, or else in the file
    that the reader was given. -/
theorem parse_print_compact {n : Node} (hkinds : ∀ m ∈ n.preorder, m.kind.Readable) (indent : Nat) (file : String) :
    ∃ r, parse (n.print indent false) file = .ok r ∧ r.unlocated = n.unlocated ∧
      (∀ k m, r.preorder[k]? = some m → m.location.line = k + 1) ∧
      ∀ m around, (m, around) ∈ r.postorder → m.location.filename = (around.findSome? target?).getD file := by
  have hread := SExp.parse_print (readable_toSExp false n none hkinds) indent
  have hplaces : ((n.toSExp false none).printedAt indent 0 .start).unplaced = n.toSExp false none := by
    rw [SExp.unplaced_printedAt, unplaced_toSExp]
  have hdescribed := @exists_of_compact n _ file none (fun m hm => (hkinds m hm).wellTagged) hplaces
  obtain ⟨r, hr, hsame, hfiled⟩ := hdescribed
  have hlines := lines_of_compact hkinds hr
  refine ⟨r, ?_, hsame.symm, ?_, fun m around hm => hfiled _ hm⟩
  · rw [parse, print, hread]
    exact hr
  · intro k m hm
    have hk : k < r.preorder.length := (List.getElem?_eq_some_iff.1 hm).1
    have hline : (r.preorder.map fun m => m.location.line)[k]? = (List.range' 1 r.preorder.length)[k]? := by rw [hlines]
    rw [List.getElem?_map, hm, List.getElem?_range' hk, Nat.one_mul, Nat.add_comm] at hline
    exact Option.some.inj hline

/-- A page with a marker inside a marker and a rule on a line of its own choice. -/
def compactPage : Node :=
  { root "page.css" with
    children := [
      { marker "b.css" with children := [{ rule ".a" with inherited := true, children := [declaration "\n"] }] },
      { unresolvedRule with location := ⟨"c.css", 9⟩ }] }

/-- The page with the locations that a reader gives its nodes. -/
def numberedPage : Node :=
  { root "d.css" with
    children := [
      { marker "b.css" with
        location := ⟨"d.css", 2⟩
        children := [
          { rule ".a" with
            inherited := true
            location := ⟨"b.css", 3⟩
            children := [{ declaration "\n" with location := ⟨"b.css", 4⟩ }] }] },
      { unresolvedRule with location := ⟨"d.css", 5⟩ }] }

theorem parse_print_compact_compactPage : parse (compactPage.print 0 false) "d.css" = .ok numberedPage ∧
    numberedPage.unlocated = compactPage.unlocated := by
  obtain ⟨r, hread, hsame, -⟩ := parse_print_compact (n := compactPage) (by decide) 0 "d.css"
  have hnumbered : parse (compactPage.print 0 false) "d.css" = .ok numberedPage := by decide +kernel
  rw [hread] at hnumbered
  cases hnumbered
  exact ⟨hread, hsame⟩

end Node

end StyleTree
