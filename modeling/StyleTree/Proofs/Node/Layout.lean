import StyleTree.Proofs.Node.Lines
import StyleTree.Proofs.Node.Locations
import StyleTree.Proofs.SExp.Blame
import StyleTree.Proofs.SExp.Layout

/-!
# `Proofs.Node.Layout` — layout says nothing but lines

Two texts with the same words, otherwise apart, describe the same tree or are refused for the same fault. The only
places that a tree is told by are the lines of lists that name none, so these are the only difference (`Node.unlined`).

The two readings are followed side by side, through the parts of a form, the header and the children. Neither takes
another branch than the other, since no branch asks where something stands. For an expression that is
`ofSExp_unplaced`, by induction on it, and for two texts `parse_relaid`.
-/

namespace StyleTree

/-! ## The parts of a form -/

theorem withoutPlaces_keep {α β : Type} {x y : Except ReadError α} (h : withoutPlaces id x = withoutPlaces id y)
    (keep : α → β) : withoutPlaces keep x = withoutPlaces keep y := by
  cases x <;> cases y <;> simp_all [withoutPlaces]

namespace Form

variable (form : Form) (file : String) (pos pos' : Position)

/-- A field is read to the same without the places, if it is there. If not, the readings are what they are. -/
theorem withoutPlaces_field {α β : Type} {keep : α → β} {value : SExp → Except ReadError α}
    {missing missing' : Except ReadError α} (name : String)
    (hvalue : ∀ e : SExp, withoutPlaces keep (value e.unplaced) = withoutPlaces keep (value e))
    (hmissing : withoutPlaces keep missing' = withoutPlaces keep missing) :
    withoutPlaces keep ((form.unplaced.field? name).elim missing' value)
      = withoutPlaces keep ((form.field? name).elim missing value) := by
  rw [field?_unplaced]
  cases form.field? name with
  | none => exact hmissing
  | some e => exact hvalue e

/-- The file is the same, the line may not be. -/
theorem location_unplaced : withoutPlaces (Location.withLine · 0) (form.unplaced.location file pos')
    = withoutPlaces (Location.withLine · 0) (form.location file pos) := by
  have hfile : withoutPlaces id ((form.unplaced.field? "file").elim (.ok file) SExp.asString)
      = withoutPlaces id ((form.field? "file").elim (.ok file) SExp.asString) :=
    form.withoutPlaces_field "file" SExp.asString_unplaced rfl
  have hline : withoutPlaces (fun _ => ()) ((form.unplaced.field? "line").elim (.ok pos'.line) SExp.asNumber)
      = withoutPlaces (fun _ => ()) ((form.field? "line").elim (.ok pos.line) SExp.asNumber) :=
    form.withoutPlaces_field "line" (fun e => withoutPlaces_keep e.asNumber_unplaced _) rfl
  rw [location_eq, location_eq]
  refine withoutPlaces_bind hfile fun filename' filename hfilename => ?_
  refine withoutPlaces_bind hline fun _ _ _ => ?_
  cases hfilename
  rfl

theorem inherited_unplaced : withoutPlaces id form.unplaced.inherited = withoutPlaces id form.inherited := by
  rw [inherited_eq, inherited_eq]
  exact form.withoutPlaces_field "inherited" SExp.asBool_unplaced rfl

theorem refuseUnknown_unplaced :
    withoutPlaces id form.unplaced.refuseUnknown = withoutPlaces id form.refuseUnknown := by
  have hfind : form.unplaced.fields.find? (fun field => !knownFields.contains field.name)
      = (form.fields.find? fun field => !knownFields.contains field.name).map Field.unplaced :=
    List.find?_map
  rw [refuseUnknown, refuseUnknown, hfind]
  cases form.fields.find? fun field => !knownFields.contains field.name <;> rfl

theorem requireArgument_unplaced (what : Expectation) :
    withoutPlaces id (form.unplaced.requireArgument what pos')
      = withoutPlaces SExp.unplaced (form.requireArgument what pos) := by
  obtain ⟨head, argument?, fields, children⟩ := form
  cases argument? <;> rfl

theorem kind_unplaced : withoutPlaces id (form.unplaced.kind pos') = withoutPlaces id (form.kind pos) := by
  have hhead : form.unplaced.head = form.head := rfl
  have hargument : form.unplaced.argument? = form.argument?.map SExp.unplaced := rfl
  have hrequire := form.requireArgument_unplaced pos pos'
  rw [kind, kind, hhead, hargument]
  by_cases hroot : form.head = Node.rootTag
  · rw [if_pos hroot, if_pos hroot]
    cases form.argument? with
    | none => rfl
    | some argument =>
      show withoutPlaces id (.error (.expected .fieldOrChild argument.unplaced.describe pos')) = _
      rw [SExp.describe_unplaced]
      rfl
  rw [if_neg hroot, if_neg hroot]
  by_cases hrule : form.head = "rule"
  · rw [if_pos hrule, if_pos hrule]
    refine withoutPlaces_bind (hrequire .selector) ?_
    rintro _ argument rfl
    refine withoutPlaces_bind argument.asOptionalString_unplaced ?_
    rintro _ selector rfl
    rfl
  rw [if_neg hrule, if_neg hrule]
  by_cases hinherit : form.head = "inherit"
  · rw [if_pos hinherit, if_pos hinherit]
    refine withoutPlaces_bind (hrequire .inheritedFile) ?_
    rintro _ argument rfl
    refine withoutPlaces_bind argument.asString_unplaced ?_
    rintro _ target rfl
    rfl
  rw [if_neg hinherit, if_neg hinherit]
  cases form.argument? with
  | none => rfl
  | some argument =>
    refine withoutPlaces_bind argument.asOptionalString_unplaced ?_
    rintro _ text rfl
    rfl

end Form

namespace Node

/-- The tree as if its nodes were on no line. -/
def unlined (n : Node) : Node :=
  n.relocate (Location.withLine · 0)

end Node

/-- **A header says the same without the places**, but for the line. -/
theorem Form.header_unplaced (form : Form) (file : String) (pos pos' : Position) :
    withoutPlaces Node.unlined (form.unplaced.header file pos')
      = withoutPlaces Node.unlined (form.header file pos) := by
  refine withoutPlaces_bind (form.location_unplaced file pos pos') fun location' location hlocation => ?_
  refine withoutPlaces_bind form.inherited_unplaced ?_
  rintro _ inherited rfl
  refine withoutPlaces_bind form.refuseUnknown_unplaced ?_
  rintro _ _ rfl
  refine withoutPlaces_bind (form.kind_unplaced pos pos') ?_
  rintro _ kind rfl
  exact congrArg Except.ok (Node.relocate_eq_iff.2 ⟨rfl, rfl, hlocation, rfl⟩)

namespace Node

/-! ## The tree -/

/-- If each list among the elements describes the same tree without the places, so do all of them. -/
theorem ofElements_unplaced {file : String} {es : List SExp}
    (h : ∀ e ∈ es, withoutPlaces unlined (ofSExp file e.unplaced) = withoutPlaces unlined (ofSExp file e))
    (taken : Bool) : withoutPlaces (List.map unlined) (ofElements file taken (es.map SExp.unplaced))
      = withoutPlaces (List.map unlined) (ofElements file taken es) := by
  induction es generalizing taken with
  | nil => rfl
  | cons e es ih =>
    have hlater := ih fun e' he' => h e' (List.mem_cons_of_mem _ he')
    rw [List.map_cons]
    cases taken with
    | true =>
      rw [Form.ofElements_taken, Form.ofElements_taken]
      exact hlater false
    | false =>
      cases e with
      | atom a pos =>
        rw [SExp.unplaced_atom, Form.ofElements_atom, Form.ofElements_atom, ← SExp.isKeyword_unplaced (.atom a pos)]
        exact hlater (SExp.atom a .synthetic).isKeyword
      | list elements pos =>
        have hfirst := h _ List.mem_cons_self
        rw [SExp.unplaced_list] at hfirst ⊢
        rw [Form.ofElements_list, Form.ofElements_list]
        refine withoutPlaces_bind hfirst fun child' child hchild => ?_
        refine withoutPlaces_bind (hlater false) fun children' children hchildren => ?_
        exact congrArg Except.ok (List.cons_eq_cons.2 ⟨hchild, hchildren⟩)

/-- **Without the places an expression describes the same tree**, but for the lines, or is refused for the same
    fault. -/
theorem ofSExp_unplaced (e : SExp) : ∀ file : String,
    withoutPlaces unlined (ofSExp file e.unplaced) = withoutPlaces unlined (ofSExp file e) := by
  induction e using SExp.elementInduction with
  | atom a pos =>
    intro file
    rw [SExp.unplaced_atom, ofSExp, ofSExp]
    rfl
  | list elements pos ih =>
    intro file
    rw [SExp.unplaced_list, Form.ofSExp_list, Form.ofSExp_list]
    refine withoutPlaces_bind (Form.split_unplaced elements pos .synthetic) ?_
    rintro _ form rfl
    refine withoutPlaces_bind (form.header_unplaced file pos .synthetic) fun node' node hnode => ?_
    obtain ⟨hkind, hinherited, hlocation, -⟩ := relocate_eq_iff.1 hnode
    -- The children come from the same file, since only the lines of the headers can differ.
    have hfile : node'.kind.childFile node'.location.filename = node.kind.childFile node.location.filename := by
      rw [hkind, (Location.mk.inj hlocation).1]
    rw [hfile]
    refine withoutPlaces_bind (ofElements_unplaced (fun e he => ih e he _) false) fun children' children hchildren => ?_
    exact congrArg Except.ok (relocate_eq_iff.2 ⟨hkind, hinherited, hlocation, hchildren⟩)

/-! ## Two texts -/

theorem parse_eq_bind (text file : String) : parse text file = SExp.parse text >>= ofSExp file := by
  rw [parse]
  cases SExp.parse text <;> rfl

/-- Whether the list stands in the text where it says and describes the node, which is on the line that the list names,
    or else on the line of its opening parenthesis. -/
def DescribedIn (text : List Char) (description : SExp) (n : Node) : Prop :=
  description.StandsIn text ∧ n.Describes description ∧ n.location.line = description.nodeLine

/-- The nodes of a tree are described in the text it was read from, in the order of a visit. -/
theorem describedIn_of_parse {text file : String} {e : SExp} {n : Node} (hparse : SExp.parse text = .ok e)
    (h : ofSExp file e = .ok n) : List.Forall₂ (DescribedIn text.toList) e.descriptions n.preorder := by
  have hdescribed := describes_of_ofSExp e h
  refine List.forall₂_iff_zip.2 ⟨hdescribed.length_eq, fun {description m} hpair => ?_⟩
  have hdescribes : m.Describes description := (List.forall₂_iff_zip.1 hdescribed).2 hpair
  have hpart := e.mem_subexpressions_of_mem_descriptions (List.of_mem_zip hpair).1
  exact ⟨SExp.standsIn_of_parse hparse hpart, hdescribes, hdescribes.line⟩

/-- **Layout and comments say nothing.** Take the words of a text and put white space and whole comments between them
    in place of what stood there. If the text is refused, the other one is refused for the same fault, which may be
    found elsewhere. If it describes a tree, the other one describes the same tree but for lines: both trees are
    described by the same lists in their texts, a list names the same line in both or in neither, and where it names
    none, the node is on the line of its opening parenthesis in its own text. -/
theorem parse_relaid {text text' : String} {words words' : List Token.Word} {last last' : List Char}
    {tokens : List Token} (h : Token.Divides [] text.toList words last tokens)
    (hrelaid : Token.Relaid words words' last') (htext : text'.toList = Token.textOf words' last') (file : String) :
    (∀ error, parse text file = .error error →
      ∃ error', parse text' file = .error error' ∧ error'.unplaced = error.unplaced) ∧
    ∀ n, parse text file = .ok n → ∃ n', parse text' file = .ok n' ∧ n'.unlined = n.unlined ∧
      ∃ e e', SExp.parse text = .ok e ∧ SExp.parse text' = .ok e' ∧ e'.unplaced = e.unplaced ∧
        e'.descriptions.map SExp.namedLine? = e.descriptions.map SExp.namedLine? ∧
        List.Forall₂ (DescribedIn text.toList) e.descriptions n.preorder ∧
        List.Forall₂ (DescribedIn text'.toList) e'.descriptions n'.preorder := by
  have hexpression := SExp.parse_of_relaid h hrelaid htext
  have htree : withoutPlaces unlined (parse text' file) = withoutPlaces unlined (parse text file) := by
    rw [parse_eq_bind, parse_eq_bind]
    refine withoutPlaces_bind hexpression fun e' e he => ?_
    rw [← ofSExp_unplaced e', he, ofSExp_unplaced]
  constructor
  · intro error herror
    rw [herror] at htree
    exact withoutPlaces_eq_error.1 htree
  · intro n hn
    rw [hn] at htree
    obtain ⟨n', hn', hsame⟩ := withoutPlaces_eq_ok.1 htree
    rw [parse_eq_bind] at hn hn'
    obtain ⟨e, he, hread⟩ := Except.bind_eq_ok hn
    obtain ⟨e', he', hread'⟩ := Except.bind_eq_ok hn'
    rw [he, he'] at hexpression
    have hplaces : e'.unplaced = e.unplaced := Except.ok.inj hexpression
    rw [parse_eq_bind]
    exact ⟨n', hn', hsame, e, e', he, he', hplaces, SExp.map_namedLine?_of_unplaced hplaces,
      describedIn_of_parse he hread, describedIn_of_parse he' hread'⟩

/-- The words of a rule and of a declaration that names its line, with as little between them as there can be. -/
def tightWords : List Token.Word :=
  [⟨[], ['(']⟩, ⟨[], ['r', 'u', 'l', 'e']⟩, ⟨[' '], ['n', 'i', 'l']⟩, ⟨[], ['(']⟩, ⟨[], ['p']⟩,
    ⟨[], [':', 'l', 'i', 'n', 'e']⟩, ⟨[' '], ['7']⟩, ⟨[], [')']⟩, ⟨[], [')']⟩]

/-- The same words with line feeds and comments between them. -/
def looseWords : List Token.Word :=
  [⟨[';', '(', '\n'], ['(']⟩, ⟨['\n'], ['r', 'u', 'l', 'e']⟩, ⟨['\t'], ['n', 'i', 'l']⟩, ⟨['\n'], ['(']⟩,
    ⟨[' '], ['p']⟩, ⟨[';', '\n'], [':', 'l', 'i', 'n', 'e']⟩, ⟨[' '], ['7']⟩, ⟨[' '], [')']⟩, ⟨[' '], [')']⟩]

/-- The rule, on the given line. -/
def spacedRule (line : Nat) : Node :=
  { kind := .rule none
    location := ⟨"a.css", line⟩
    children := [{ kind := .other "p" none, location := ⟨"a.css", 7⟩ }] }

theorem parse_relaid_looseWords : parse "(rule nil(p:line 7))" "a.css" = .ok (spacedRule 1) ∧
    parse ";(\n(\nrule\tnil\n( p;\n:line 7 ) )" "a.css" = .ok (spacedRule 2) ∧
      (spacedRule 2).unlined = (spacedRule 1).unlined := by
  have htight : parse "(rule nil(p:line 7))" "a.css" = .ok (spacedRule 1) := by decide +kernel
  have hloose : parse ";(\n(\nrule\tnil\n( p;\n:line 7 ) )" "a.css" = .ok (spacedRule 2) := by decide +kernel
  have hdivides : Token.Divides [] "(rule nil(p:line 7))".toList tightWords []
      [⟨.openParen, "(", ⟨0, 1, 1⟩⟩, ⟨.symbol, "rule", ⟨1, 1, 2⟩⟩, ⟨.nil, "nil", ⟨6, 1, 7⟩⟩,
        ⟨.openParen, "(", ⟨9, 1, 10⟩⟩, ⟨.symbol, "p", ⟨10, 1, 11⟩⟩, ⟨.keyword, "line", ⟨11, 1, 12⟩⟩,
        ⟨.number, "7", ⟨17, 1, 18⟩⟩, ⟨.closeParen, ")", ⟨18, 1, 19⟩⟩, ⟨.closeParen, ")", ⟨19, 1, 20⟩⟩] := by
    have hblank : ∀ behind, Trivia behind [' '] := fun behind => .blank (by decide) .nil
    have hline : ∀ c ∈ "line".toList, isSymbolChar c = true := List.all_eq_true.1 (by decide)
    have hseven : IsNumeral ['7'] := ⟨['7'], by simp, List.forall_mem_singleton.2 rfl, .inl rfl⟩
    refine .word rfl .nil .openParen trivial rfl ?_
    refine .word rfl .nil (.symbol (by decide)) (by decide) rfl ?_
    refine .word rfl (hblank _) .nil (by decide) rfl ?_
    refine .word rfl .nil .openParen trivial rfl ?_
    refine .word rfl .nil (.symbol (by decide)) (by decide) rfl ?_
    refine .word rfl .nil (.keyword hline) (by decide) rfl ?_
    refine .word rfl (hblank _) (.number hseven) (by decide) rfl ?_
    refine .word rfl .nil .closeParen trivial rfl ?_
    refine .word rfl .nil .closeParen trivial rfl ?_
    exact .last .nil
  have hseparators : ∀ word ∈ looseWords, Separator word.gap := by
    have hblank : ∀ c, isBlank c = true → Separator [c] := fun c hc => .blank hc .nil
    have hcomment : Separator (';' :: (['('] ++ '\n' :: [])) := .comment (List.forall_mem_singleton.2 (by decide)) .nil
    have hempty : Separator (';' :: ([] ++ '\n' :: [])) := .comment (List.forall_mem_nil _) .nil
    simp only [looseWords, List.forall_mem_cons]
    exact ⟨hcomment, hblank _ (by decide), hblank _ (by decide), hblank _ (by decide), hblank _ (by decide), hempty,
      hblank _ (by decide), hblank _ (by decide), hblank _ (by decide), List.forall_mem_nil _⟩
  have hrelaid : Token.Relaid tightWords looseWords [] := ⟨rfl, hseparators, by decide, .nil⟩
  have htext : ";(\n(\nrule\tnil\n( p;\n:line 7 ) )".toList = Token.textOf looseWords [] := by rfl
  obtain ⟨n', hn', hsame, -⟩ := (parse_relaid hdivides hrelaid htext "a.css").2 _ htight
  rw [hloose] at hn'
  cases hn'
  exact ⟨htight, hloose, hsame⟩

end Node

end StyleTree
