import StyleTree.Proofs.Node.Files

/-!
# `Proofs.Node.Omitted` — what may be left out

A tree is written for a reader who assumes a file, and its nodes name their files only where they are in another one.
Writer and reader hand the assumed file down alike: below a marker it is the file that the marker inherits from, below
any other node the file of that node. So the reader adds what the writer left out, and the expression describes the tree
again. The one thing that can go wrong is a tag that is the name of another kind of node; since no text is written, any
other tag will do.

Nothing else could be left out. In any expression that describes the tree, a node whose file is not the one around it
has to name it (`namesFile_of_ofSExp`), and those are the nodes for which the writer does (`namesFile_toSExp_iff`). Both
directions, and what becomes of the tree if a list is deprived of its file all the same, are `ofSExp_toSExp_iff`.
-/

namespace StyleTree

/-! ## Written lists -/

section Split

variable {elements : List SExp} {pos : Position} {form : Form}

theorem fields_of_split (h : Form.split elements pos = .ok form) : (SExp.list elements pos).fields = form.fields := by
  obtain ⟨head, headPos, items, rfl, -, rfl⟩ := Form.split_eq_ok_iff.1 h
  exact SExp.fieldsIn_items items

theorem childForms_of_split (h : Form.split elements pos = .ok form) :
    (SExp.list elements pos).childForms = form.children := by
  obtain ⟨head, headPos, items, rfl, -, rfl⟩ := Form.split_eq_ok_iff.1 h
  exact SExp.listsIn_items items

end Split

namespace Node

section Written

variable (showLocations : Bool)

/-- The list that is written for a node has the fields of the node and no others. -/
theorem fields_toSExp (assumed : Option String) (n : Node) :
    (n.toSExp showLocations assumed).fields = n.fields showLocations assumed := by
  rw [toSExp_eq]
  exact fields_of_split (Form.split_elements (form_proper showLocations assumed n) .synthetic .synthetic)

theorem childForms_toSExp (assumed : Option String) (n : Node) : (n.toSExp showLocations assumed).childForms
    = n.children.map (toSExp showLocations (some (n.kind.childFile n.location.filename))) := by
  rw [toSExp_eq, ← toSExps_eq_map]
  exact childForms_of_split (Form.split_elements (form_proper showLocations assumed n) .synthetic .synthetic)

/-- At the end of each path stands the list that is written for the node there, for some reader. -/
theorem exists_formAt?_toSExp (t : Node) {path : List Nat} {n : Node} (hn : t.at? path = some n) :
    ∀ assumed : Option String, ∃ assumed',
      (t.toSExp showLocations assumed).formAt? path = some (n.toSExp showLocations assumed') := by
  induction path generalizing t with
  | nil =>
    intro assumed
    cases hn
    exact ⟨assumed, rfl⟩
  | cons i path ih =>
    intro assumed
    rw [Node.at?, descend_cons, Option.bind_eq_some_iff] at hn
    obtain ⟨child, hchild, hn⟩ := hn
    obtain ⟨assumed', hform⟩ := ih child hn (some (t.kind.childFile t.location.filename))
    refine ⟨assumed', ?_⟩
    rw [SExp.formAt?, descend_cons, childForms_toSExp, List.getElem?_map, hchild]
    exact hform

/-- **The list that is written for a node** is written for a reader who assumes the file around it. -/
theorem formAt?_toSExp {t n : Node} {file around : String} {path : List Nat} {assumed : Option String}
    (hassumed : path ≠ [] ∨ assumed = some file) (haround : FileAround file t path around)
    (hn : t.at? path = some n) :
    (t.toSExp showLocations assumed).formAt? path = some (n.toSExp showLocations (some around)) := by
  cases haround with
  | root =>
    cases hn
    obtain hpath | rfl := hassumed
    · exact absurd rfl hpath
    · rfl
  | @inside above parent i hparent =>
    obtain ⟨assumed', hform⟩ := exists_formAt?_toSExp showLocations t hparent assumed
    rw [Node.at?, descend_concat, Option.bind_eq_some_iff] at hn
    obtain ⟨parent', hparent', hchild⟩ := hn
    rw [Node.at?, hparent'] at hparent
    cases hparent
    rw [SExp.formAt?] at hform
    rw [SExp.formAt?, descend_concat, hform]
    show (parent.toSExp showLocations assumed').childForms[i]? = _
    rw [childForms_toSExp, List.getElem?_map, hchild, childFile_eq]
    rfl

end Written

/-! ## Names of files -/

/-- One file at most is around the end of a path. -/
theorem FileAround.unique {file around around' : String} {t : Node} {path : List Nat}
    (h : FileAround file t path around) (h' : FileAround file t path around') : around = around' := by
  generalize hpath : path = path' at h'
  cases h with
  | root =>
    cases h' with
    | root => rfl
    | inside i _ => simp at hpath
  | inside i hparent =>
    cases h' with
    | root => simp at hpath
    | inside i' hparent' =>
      obtain ⟨rfl, -⟩ := List.append_inj' hpath rfl
      rw [hparent] at hparent'
      cases hparent'
      rfl

/-- The writer names the file of a node if the reader assumes another one. -/
theorem namesFile_toSExp_iff (around : String) (n : Node) :
    (n.toSExp true (some around)).NamesFile ↔ n.location.filename ≠ around := by
  unfold SExp.NamesFile
  rw [fields_toSExp]
  by_cases hfile : n.location.filename = around
  · have hassumed : some around = some n.location.filename := congrArg some hfile.symm
    cases hflag : n.inherited <;> simp [fields, hassumed, hfile, hflag]
  · have hassumed : some around ≠ some n.location.filename := fun h => hfile (Option.some.inj h).symm
    refine iff_of_true ⟨⟨"file", .synthetic, .string n.location.filename⟩, ?_, rfl⟩ hfile
    simp [fields, hassumed]

/-- **In any expression that describes a tree** a node names its file if it is not in the one around it. -/
theorem namesFile_of_ofSExp {file around : String} {e description : SExp} {t n : Node} {path : List Nat}
    (h : ofSExp file e = .ok t) (hdescription : e.formAt? path = some description) (hn : t.at? path = some n)
    (haround : FileAround file t path around) (hfile : n.location.filename ≠ around) : description.NamesFile := by
  obtain ⟨around', haround', htells⟩ := filedBy_of_denotes (denotes_of_ofSExp e h) hdescription hn
  cases haround.unique haround'
  generalize hfilename : n.location.filename = filename at htells hfile
  cases htells with
  | absent => exact absurd rfl hfile
  | first hfields _ hname _ => exact ⟨_, hfields ▸ List.mem_append_cons_self, hname⟩

end Node

/-! ## Leaving one out -/

namespace SExp

/-- The elements behind a head without the fields that name a file. -/
def withoutFileIn : List SExp → List SExp
  | .atom (.keyword name) pos :: value :: rest =>
    if name = "file" then withoutFileIn rest else .atom (.keyword name) pos :: value :: withoutFileIn rest
  | e :: rest => e :: withoutFileIn rest
  | [] => []

/-- The list without the fields that name a file. -/
def withoutFile : SExp → SExp
  | .list (head :: rest) pos => .list (head :: withoutFileIn rest) pos
  | e => e

/-- The elements behind a head with a change to the list of the given number, as lists that describe children are
    counted. -/
def changeIn (change : SExp → SExp) : Nat → List SExp → List SExp
  | i, .atom (.keyword name) pos :: value :: rest => .atom (.keyword name) pos :: value :: changeIn change i rest
  | 0, .list elements pos :: rest => change (.list elements pos) :: rest
  | i + 1, .list elements pos :: rest => .list elements pos :: changeIn change i rest
  | i, e :: rest => e :: changeIn change i rest
  | _, [] => []

/-- The expression with a change to the list at the end of a path. -/
def changeAt (change : SExp → SExp) : List Nat → SExp → SExp
  | [], e => change e
  | i :: path, .list (head :: rest) pos => .list (head :: changeIn (changeAt change path) i rest) pos
  | _ :: _, e => e

/-- Without its file a list keeps its other fields, in their order. -/
theorem fieldsIn_withoutFileIn (es : List SExp) :
    fieldsIn (withoutFileIn es) = (fieldsIn es).filter fun field => field.name ≠ "file" := by
  fun_induction withoutFileIn es with
  | case1 pos value rest ih => simp [fieldsIn, ih]
  | case2 name pos value rest hname ih => simp [fieldsIn, ih, hname]
  | case3 e rest hfield ih =>
    -- A keyword begins a field unless it stands last, and nothing else does.
    cases e with
    | list elements pos => exact ih
    | atom a pos =>
      cases a with
      | keyword name =>
        cases rest with
        | nil => rfl
        | cons value rest => exact (hfield name pos value rest rfl rfl).elim
      | _ => exact ih
  | case4 => rfl

/-- A list without its file names none. -/
theorem not_namesFile_withoutFile (e : SExp) : ¬ e.withoutFile.NamesFile := by
  rintro ⟨field, hfield, hname⟩
  cases e with
  | atom a pos => cases hfield
  | list elements pos =>
    cases elements with
    | nil => cases hfield
    | cons head rest =>
      change field ∈ fieldsIn (withoutFileIn rest) at hfield
      rw [fieldsIn_withoutFileIn, List.mem_filter] at hfield
      simp [hname] at hfield

section Change

variable {change : SExp → SExp} (hchange : ∀ e, (change e).isList = e.isList)

include hchange in
/-- A change to one of the lists inside a list leaves the others where they are. -/
theorem listsIn_changeIn (i : Nat) (es : List SExp) :
    listsIn (changeIn change i es) = (listsIn es).modify i change := by
  fun_induction changeIn change i es with
  | case1 i name pos value rest ih => simp [listsIn, ih]
  | case2 elements pos rest =>
    have hlist := hchange (.list elements pos)
    cases hchanged : change (.list elements pos) with
    | atom a pos' =>
      rw [hchanged] at hlist
      cases hlist
    | list elements' pos' => simp [listsIn, hchanged]
  | case3 i elements pos rest ih => simp [listsIn, ih]
  | case4 i e rest hfield hzero hsucc ih =>
    cases e with
    | list elements pos =>
      cases i with
      | zero => exact (hzero elements pos rfl rfl).elim
      | succ i => exact (hsucc i elements pos rfl rfl).elim
    | atom a pos =>
      cases a with
      | keyword name =>
        cases rest with
        | nil => simp [changeIn, listsIn]
        | cons value rest => exact (hfield name pos value rest rfl rfl).elim
      | _ => exact ih
  | case5 => simp [listsIn]

include hchange in
theorem isList_changeAt (path : List Nat) (e : SExp) : (e.changeAt change path).isList = e.isList := by
  cases path with
  | nil => exact hchange e
  | cons i path =>
    cases e with
    | atom a pos => rfl
    | list elements pos => cases elements <;> rfl

include hchange in
/-- At the end of the path stands the changed list. -/
theorem formAt?_changeAt (e : SExp) (path : List Nat) :
    (e.changeAt change path).formAt? path = (e.formAt? path).map change := by
  induction path generalizing e with
  | nil => rfl
  | cons i path ih =>
    have hforms : (e.changeAt change (i :: path)).childForms = e.childForms.modify i (changeAt change path) := by
      cases e with
      | atom a pos => simp [changeAt, childForms]
      | list elements pos =>
        cases elements with
        | nil => simp [changeAt, childForms]
        | cons head rest => exact listsIn_changeIn (isList_changeAt hchange path) i rest
    rw [formAt?, formAt?, descend_cons, descend_cons, hforms, List.getElem?_modify_eq]
    cases e.childForms[i]? with
    | none => rfl
    | some c => exact ih c

end Change

theorem isList_withoutFile (e : SExp) : e.withoutFile.isList = e.isList := by
  cases e with
  | atom a pos => rfl
  | list elements pos => cases elements <;> rfl

end SExp

namespace Node

/-! ## Both ways -/

instance : ∀ kind : Kind, Decidable kind.WellTagged
  | .rule _ | .inherit _ => inferInstanceAs (Decidable True)
  | .other tag text =>
    inferInstanceAs (Decidable (tag ≠ "rule" ∧ tag ≠ "inherit" ∧ (tag = rootTag → text = none)))

/-- The kinds of a tree that any expression describes are not written like others. -/
theorem wellTagged_of_ofSExp {file : String} {e : SExp} {t : Node} (h : ofSExp file e = .ok t) :
    ∀ n ∈ t.preorder, n.kind.WellTagged := by
  intro n hn
  obtain ⟨elements, pos, -, hdescribed⟩ := exists_describedBy e h n hn
  exact hdescribed.wellTagged

/-- **Writer and reader agree on what may be left out.** If the lines of a tree fit a machine word, then what is written
    for a reader who assumes a file describes the tree in that file, and what is written for one who assumes none
    describes it in any file, if and only if no tag is the name of another kind of node. A node names its file if and
    only if it is not in the file around it, below the root and, where a file is assumed, at the root. No such name can
    be left out: without it another tree is described, or none. -/
theorem ofSExp_toSExp_iff {t : Node} (hlines : ∀ n ∈ t.preorder, n.location.line < wordBound) :
    (∀ file, ofSExp file (t.toSExp true (some file)) = .ok t ↔ ∀ n ∈ t.preorder, n.kind.WellTagged) ∧
      (∀ file, ofSExp file (t.toSExp true none) = .ok t ↔ ∀ n ∈ t.preorder, n.kind.WellTagged) ∧
      ∀ assumed file path around n, path ≠ [] ∨ assumed = some file → FileAround file t path around →
        t.at? path = some n →
          (t.toSExp true assumed).formAt? path = some (n.toSExp true (some around)) ∧
          ((n.toSExp true (some around)).NamesFile ↔ n.location.filename ≠ around) ∧
          ((n.toSExp true (some around)).NamesFile →
            ofSExp file ((t.toSExp true assumed).changeAt SExp.withoutFile path) ≠ .ok t) := by
  refine ⟨fun file => ⟨wellTagged_of_ofSExp, fun htags => ?_⟩, fun file => ⟨wellTagged_of_ofSExp, fun htags => ?_⟩, ?_⟩
  · exact ofSExp_of_unplaced t (.inr rfl) hlines htags (unplaced_toSExp true t (some file))
  · exact ofSExp_of_unplaced t (.inl rfl) hlines htags (unplaced_toSExp true t none)
  · intro assumed file path around n hassumed haround hn
    have hform := formAt?_toSExp true hassumed haround hn
    refine ⟨hform, namesFile_toSExp_iff around n, fun hnames hread => ?_⟩
    -- Without its field the list names no file, but whoever describes the tree has to.
    have hchanged := SExp.formAt?_changeAt SExp.isList_withoutFile (t.toSExp true assumed) path
    rw [hform] at hchanged
    have hfile := (namesFile_toSExp_iff around n).1 hnames
    exact SExp.not_namesFile_withoutFile _ (namesFile_of_ofSExp hread hchanged hn haround hfile)

/-- A marker with a node in the file that it inherits from, whose tag no text can hold, and one in another file. -/
def untaggedBlock : Node :=
  { marker "base.css" with
    location := ⟨"page.css", 2⟩
    children := [{ other "" "x" with location := ⟨"base.css", 1⟩ }, { rule ".a" with location := ⟨"page.css", 4⟩ }] }

/-- A page with that marker. -/
def untaggedPage : Node :=
  { root "page.css" with children := [untaggedBlock] }

theorem ofSExp_toSExp_iff_untaggedPage :
    ofSExp "page.css" (untaggedPage.toSExp true (some "page.css")) = .ok untaggedPage ∧
      ofSExp "other.css" (untaggedPage.toSExp true none) = .ok untaggedPage ∧
      ofSExp "page.css" ((untaggedPage.toSExp true none).changeAt SExp.withoutFile [0, 1]) ≠ .ok untaggedPage ∧
      ofSExp "page.css" ((other "rule" "x").toSExp true none) ≠ .ok (other "rule" "x") := by
  have hlines : ∀ n ∈ untaggedPage.preorder, n.location.line < wordBound := by decide
  have htags : ∀ n ∈ untaggedPage.preorder, n.kind.WellTagged := by decide
  obtain ⟨hsome, hnone, hfiles⟩ := ofSExp_toSExp_iff hlines
  have haround : FileAround "page.css" untaggedPage [0, 1] "base.css" :=
    @FileAround.inside _ _ [0] untaggedBlock 1 rfl
  obtain ⟨-, hnames, hneeded⟩ := hfiles none "page.css" [0, 1] "base.css" _ (.inl (by decide)) haround rfl
  refine ⟨(hsome "page.css").2 htags, (hnone "other.css").2 htags, hneeded (hnames.2 (by decide)), fun hread => ?_⟩
  have hwritten := (ofSExp_toSExp_iff (t := other "rule" "x") (by decide)).2.1 "page.css"
  exact absurd (hwritten.1 hread) (by decide)

end Node

end StyleTree
