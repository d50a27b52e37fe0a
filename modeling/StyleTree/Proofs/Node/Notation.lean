import StyleTree.Proofs.Node.Form

/-!
# `Proofs.Node.Notation` — the grammar of tree notation

What an expression has to look like to describe a tree can be said without reading it. Behind the head of a list stand
items: fields, each a keyword with the element behind it, lists for the children, and at most one other atom, with
nothing but fields before it. Since every item shows by its first element what it is and how long it is, a list can be
cut into items in one way only, from left to right. The fields say where the node is and whether it is inherited; the
head and the atom say what it is.

The reader accepts the expressions of this grammar and no others, and returns the tree that it gives them.

## Contents
- **Items.** `Item`, `ArgumentFirst`, and `Form.split_eq_ok_iff`: splitting finds the items.
- **Values.** `SExp.IsText`, `IsTruth` and `IsLine`, and the readers that find them.
- **One list.** `FieldTells`, what a field says, `TellsKind`, what head and atom say, and `Form.header_eq_ok_iff`.
- **The tree.** `Node.Denotes`, and `ofSExp_eq_ok_iff_denotes`, by induction on the expression.
-/

namespace StyleTree

/-! ## Items -/

/-- One item behind the head of a list. -/
inductive Item where
  /-- An atom that is no keyword. -/
  | argument (a : Atom) (pos : Position) (plain : ∀ name, a ≠ .keyword name)
  /-- A keyword with the element behind it, whatever that is. -/
  | field (f : Field)
  /-- A list. -/
  | child (elements : List SExp) (pos : Position)

namespace Item

/-- The elements of a list that the item is made of. -/
def elements : Item → List SExp
  | .argument a pos _ => [.atom a pos]
  | .field f => f.elements
  | .child elements pos => [.list elements pos]

/-- The atom, if the item is one. -/
def argument? : Item → Option SExp
  | .argument a pos _ => some (.atom a pos)
  | .field _ | .child _ _ => none

/-- The field, if the item is one. -/
def field? : Item → Option Field
  | .field f => some f
  | .argument _ _ _ | .child _ _ => none

/-- The list, if the item is one. -/
def child? : Item → Option SExp
  | .child elements pos => some (.list elements pos)
  | .argument _ _ _ | .field _ => none

end Item

/-- Whether nothing but fields stands before an atom. So there is no second one. -/
def ArgumentFirst (items : List Item) : Prop :=
  items.Pairwise fun earlier later => later.argument? ≠ none → earlier.field? ≠ none

/-- Behind the atom, or a list, there is no atom. -/
theorem ArgumentFirst.behind {item : Item} {items : List Item} (h : ArgumentFirst (item :: items))
    (hitem : item.field? = none) : ∀ later ∈ items, later.argument? = none := by
  intro later hlater
  by_contra hargument
  exact (List.pairwise_cons.1 h).1 later hlater hargument hitem

namespace Form

/-- The form with the given items. -/
def ofItems (head : String) (items : List Item) : Form :=
  ⟨head, items.findSome? Item.argument?, items.filterMap Item.field?, items.filterMap Item.child?⟩

/-- A list that can be split is a row of items, cut where the pass that splits it cuts. Once no atom is welcome, none
    comes. -/
theorem exists_items_of_splitRest {head : String} {atomWelcome : Bool} {es : List SExp} {form : Form}
    (h : splitRest head atomWelcome es = .ok form) :
    ∃ items, es = items.flatMap Item.elements ∧ form = ofItems head items ∧ ArgumentFirst items ∧
      (atomWelcome = false → ∀ item ∈ items, item.argument? = none) := by
  fun_induction splitRest head atomWelcome es generalizing form with
  | case1 =>
    cases h
    exact ⟨[], rfl, rfl, .nil, fun _ item hitem => by cases hitem⟩
  | case2 atomWelcome elements pos rest ih =>
    obtain ⟨inner, hinner, rfl⟩ := Except.map_eq_ok h
    obtain ⟨items, rfl, rfl, hfirst, hnone⟩ := ih hinner
    refine ⟨.child elements pos :: items, rfl, rfl, .cons ?_ hfirst, fun _ => ?_⟩
    · intro later hlater hargument
      exact absurd (hnone rfl later hlater) hargument
    · exact List.forall_mem_cons.2 ⟨rfl, hnone rfl⟩
  | case3 => cases h
  | case4 atomWelcome pos name value rest ih =>
    obtain ⟨inner, hinner, rfl⟩ := Except.map_eq_ok h
    obtain ⟨items, rfl, rfl, hfirst, hnone⟩ := ih hinner
    refine ⟨.field ⟨name, pos, value⟩ :: items, rfl, rfl, .cons ?_ hfirst, fun hwelcome => ?_⟩
    · intro later _ _
      simp [Item.field?]
    · exact List.forall_mem_cons.2 ⟨rfl, hnone hwelcome⟩
  | case5 pos a rest hlast hmore ih =>
    obtain ⟨inner, hinner, rfl⟩ := Except.map_eq_ok h
    obtain ⟨items, rfl, rfl, hfirst, hnone⟩ := ih hinner
    have hplain : ∀ name, a ≠ .keyword name := by
      rintro name rfl
      cases isKeyword_eq_false hlast hmore pos
    refine ⟨.argument a pos hplain :: items, rfl, rfl, .cons ?_ hfirst, fun hwelcome => by cases hwelcome⟩
    intro later hlater hargument
    exact absurd (hnone rfl later hlater) hargument
  | case6 => cases h

/-- A row of items with its atom in front of its lists is split into just these items, by induction from left to
    right. -/
theorem splitRest_items (head : String) {items : List Item} (hfirst : ArgumentFirst items) :
    ∀ {atomWelcome : Bool}, (atomWelcome = false → ∀ item ∈ items, item.argument? = none) →
      splitRest head atomWelcome (items.flatMap Item.elements) = .ok (ofItems head items) := by
  induction items with
  | nil =>
    intro atomWelcome _
    rfl
  | cons item items ih =>
    intro atomWelcome hnone
    have hothers : ArgumentFirst items := (List.pairwise_cons.1 hfirst).2
    rw [List.flatMap_cons]
    cases item with
    | argument a pos hplain =>
      have hwelcome : atomWelcome = true := by
        by_contra hrefused
        cases hnone (Bool.eq_false_iff.2 hrefused) _ List.mem_cons_self
      have hkeyword : (SExp.atom a pos).isKeyword = false := by
        cases a with
        | keyword name => exact absurd rfl (hplain name)
        | _ => rfl
      show splitRest head atomWelcome (.atom a pos :: items.flatMap Item.elements) = _
      rw [splitRest_atom head atomWelcome rfl hkeyword, if_pos hwelcome, ih hothers fun _ => hfirst.behind rfl]
      rfl
    | field f =>
      have hrest : atomWelcome = false → ∀ later ∈ items, later.argument? = none := fun hwelcome later hmem =>
        hnone hwelcome later (List.mem_cons_of_mem _ hmem)
      show (splitRest head atomWelcome (items.flatMap Item.elements)).map (withField f) = _
      rw [ih hothers hrest]
      rfl
    | child elements pos =>
      show (splitRest head false (items.flatMap Item.elements)).map (withChild (.list elements pos)) = _
      rw [ih hothers fun _ => hfirst.behind rfl]
      rfl

/-- **Splitting finds the items.** -/
theorem split_eq_ok_iff {elements : List SExp} {pos : Position} {form : Form} :
    split elements pos = .ok form ↔ ∃ head headPos items,
      elements = .atom (.symbol head) headPos :: items.flatMap Item.elements ∧ ArgumentFirst items ∧
        form = ofItems head items := by
  constructor
  · intro h
    cases elements with
    | nil => cases h
    | cons first rest =>
      cases first with
      | list inner pos' => cases h
      | atom a headPos =>
        cases a with
        | symbol head =>
          obtain ⟨items, rfl, hform, hfirst, -⟩ := exists_items_of_splitRest (h : splitRest head true rest = .ok form)
          exact ⟨head, headPos, items, rfl, hfirst, hform⟩
        | _ => cases h
  · rintro ⟨head, headPos, items, rfl, hfirst, rfl⟩
    exact splitRest_items head hfirst fun hwelcome => by cases hwelcome

end Form

/-! ## Values -/

/-- Whether the characters are a numeral of the number: at least one ASCII digit, possibly after a plus sign, and a
    number below 2^64. -/
def IsUnsigned (numeral : List Char) (n : Nat) : Prop :=
  ∃ digits, (numeral = digits ∨ numeral = '+' :: digits) ∧ digits ≠ [] ∧ (∀ c ∈ digits, c.isDigit = true) ∧
    Nat.ofDigitChars 10 digits 0 = n ∧ n < 2 ^ 64

/-- Digits have a value if there are any and the value fits a machine word. -/
theorem digitsValue?_eq_some_iff {digits : List Char} {n : Nat} : digitsValue? digits = some n ↔
    digits ≠ [] ∧ (∀ c ∈ digits, c.isDigit = true) ∧ Nat.ofDigitChars 10 digits 0 = n ∧ n < 2 ^ 64 := by
  have hbound : wordBound = 2 ^ 64 := rfl
  unfold digitsValue?
  rw [hbound]
  by_cases hdigits : digits ≠ [] ∧ digits.all Char.isDigit
  · rw [if_pos hdigits]
    have hall := List.all_eq_true.1 hdigits.2
    constructor
    · intro h
      dsimp only at h
      split at h
      · next hlt =>
        cases h
        exact ⟨hdigits.1, hall, rfl, hlt⟩
      · cases h
    · rintro ⟨-, -, rfl, hlt⟩
      exact if_pos hlt
  · rw [if_neg hdigits]
    constructor
    · intro h
      cases h
    · rintro ⟨hne, hall, -, -⟩
      exact absurd ⟨hne, List.all_eq_true.2 hall⟩ hdigits

/-- The numerals that a reader takes are those of unsigned numbers, with or without a plus sign, and with nothing
    else. -/
theorem unsigned?_eq_some_iff {numeral : List Char} {n : Nat} :
    unsigned? numeral = some n ↔ IsUnsigned numeral n := by
  constructor
  · intro h
    unfold unsigned? at h
    split at h
    · exact ⟨_, .inr rfl, digitsValue?_eq_some_iff.1 h⟩
    · exact ⟨_, .inl rfl, digitsValue?_eq_some_iff.1 h⟩
  · rintro ⟨digits, rfl | rfl, hdigits⟩
    · unfold unsigned?
      split
      · -- A plus sign is no digit.
        have hplus := hdigits.2.1 '+' List.mem_cons_self
        cases hplus
      · exact digitsValue?_eq_some_iff.2 hdigits
    · exact digitsValue?_eq_some_iff.2 hdigits

namespace SExp

/-- Whether the expression is a literal of the text. -/
def IsText (text : String) (e : SExp) : Prop :=
  ∃ pos, e = .atom (.string text) pos

/-- Whether the expression is a numeral of the number. -/
def IsLine (line : Nat) (e : SExp) : Prop :=
  ∃ numeral pos, e = .atom (.number numeral) pos ∧ IsUnsigned numeral.toList line

/-- Whether the expression is the name of the truth value. -/
def IsTruth (value : Bool) (e : SExp) : Prop :=
  ∃ pos, e = .atom (.symbol (if value then "true" else "false")) pos

theorem asString_eq_ok_iff {e : SExp} {text : String} : e.asString = .ok text ↔ IsText text e := by
  constructor
  · intro h
    unfold asString at h
    split at h
    · next value pos =>
      cases h
      exact ⟨pos, rfl⟩
    · cases h
  · rintro ⟨pos, rfl⟩
    rfl

theorem asNumber_eq_ok_iff {e : SExp} {line : Nat} : e.asNumber = .ok line ↔ IsLine line e := by
  constructor
  · intro h
    unfold asNumber at h
    split at h
    · next numeral pos =>
      split at h
      · next n hn =>
        cases h
        exact ⟨numeral, pos, rfl, unsigned?_eq_some_iff.1 hn⟩
      · cases h
    · cases h
  · rintro ⟨numeral, pos, rfl, hnumeral⟩
    rw [asNumber, unsigned?_eq_some_iff.2 hnumeral]

theorem asBool_eq_ok_iff {e : SExp} {value : Bool} : e.asBool = .ok value ↔ IsTruth value e := by
  constructor
  · intro h
    unfold asBool at h
    split at h
    · next pos =>
      cases h
      exact ⟨pos, rfl⟩
    · next pos =>
      cases h
      exact ⟨pos, rfl⟩
    · cases h
  · rintro ⟨pos, rfl⟩
    cases value <;> rfl

theorem asOptionalString_eq_ok {e : SExp} {text? : Option String} (h : e.asOptionalString = .ok text?) :
    (∃ text pos, e = .atom (.string text) pos ∧ text? = some text) ∨ ∃ pos, e = .atom .nil pos ∧ text? = none := by
  unfold asOptionalString at h
  split at h
  · next text pos =>
    cases h
    exact .inl ⟨text, pos, rfl, rfl⟩
  · next pos =>
    cases h
    exact .inr ⟨pos, rfl, rfl⟩
  · cases h

end SExp

/-! ## One list -/

/-- What the first field of the name says, or what is the case without one. -/
inductive FieldTells {α : Type} (fields : List Field) (name : String) (missing : α) (means : α → SExp → Prop) :
    α → Prop
  /-- A field says it, and no field before it has the name. -/
  | first {before after : List Field} {field : Field} {a : α} : fields = before ++ field :: after →
      (∀ earlier ∈ before, earlier.name ≠ name) → field.name = name → means a field.value →
      FieldTells fields name missing means a
  /-- No field has the name. -/
  | absent : (∀ field ∈ fields, field.name ≠ name) → FieldTells fields name missing means missing

/-- What the head and the atom of a list say that the node is. -/
inductive TellsKind : (head : String) → (argument? : Option SExp) → Node.Kind → Prop
  /-- The stylesheet stands without an atom. -/
  | root : TellsKind "stylesheet" none (.other "stylesheet" none)
  /-- A rule has a selector, -/
  | rule (selector : String) (pos : Position) :
      TellsKind "rule" (some (.atom (.string selector) pos)) (.rule (some selector))
  /-- or none that is resolved. -/
  | unresolvedRule (pos : Position) : TellsKind "rule" (some (.atom .nil pos)) (.rule none)
  /-- A marker has a target. -/
  | marker (target : String) (pos : Position) :
      TellsKind "inherit" (some (.atom (.string target) pos)) (.inherit target)
  /-- Anything else has a text, -/
  | text {tag : String} (text : String) (pos : Position) : tag ∉ ["stylesheet", "rule", "inherit"] →
      TellsKind tag (some (.atom (.string text) pos)) (.other tag (some text))
  /-- or none, which can be said -/
  | noText {tag : String} (pos : Position) : tag ∉ ["stylesheet", "rule", "inherit"] →
      TellsKind tag (some (.atom .nil pos)) (.other tag none)
  /-- or left out. -/
  | bare {tag : String} : tag ∉ ["stylesheet", "rule", "inherit"] → TellsKind tag none (.other tag none)

/-- A look-up by name finds the first field of the name. -/
theorem find?_of_first {fields before after : List Field} {field : Field} {name : String}
    (hfields : fields = before ++ field :: after) (hbefore : ∀ earlier ∈ before, earlier.name ≠ name)
    (hname : field.name = name) : fields.find? (fun field => field.name == name) = some field := by
  apply List.find?_eq_some_iff_append.2
  refine ⟨beq_iff_eq.2 hname, before, after, hfields, ?_⟩
  intro earlier hearlier
  simpa using hbefore earlier hearlier

namespace Form

/-- What a reader makes of a field by its name is what the field says, or the value of a missing one. Stated once for
    whatever is read from fields. -/
theorem field_eq_ok_iff {α : Type} {form : Form} {name : String} {missing a : α} {means : α → SExp → Prop}
    {read : SExp → Except ReadError α} (hread : ∀ {e a}, read e = .ok a ↔ means a e) :
    (form.field? name).elim (.ok missing) read = .ok a ↔ FieldTells form.fields name missing means a := by
  unfold field?
  constructor
  · intro h
    cases hfind : form.fields.find? fun field => field.name == name with
    | none =>
      rw [hfind] at h
      cases h
      apply FieldTells.absent
      intro field hfield hname
      exact List.find?_eq_none.1 hfind field hfield (beq_iff_eq.2 hname)
    | some field =>
      rw [hfind] at h
      obtain ⟨hname, before, after, hfields, hbefore⟩ := List.find?_eq_some_iff_append.1 hfind
      apply FieldTells.first hfields _ (beq_iff_eq.1 hname) (hread.1 h)
      intro earlier hearlier hsame
      simpa [hsame] using hbefore earlier hearlier
  · intro h
    cases h with
    | @first before after field _ hfields hbefore hname hmeans =>
      rw [find?_of_first hfields hbefore hname]
      exact hread.2 hmeans
    | absent hnone =>
      have hfind : form.fields.find? (fun field => field.name == name) = none := by
        apply List.find?_eq_none.2
        intro field hfield
        simpa using hnone field hfield
      rw [hfind]
      rfl

theorem refuseUnknown_eq_ok_iff {form : Form} :
    form.refuseUnknown = .ok () ↔ ∀ field ∈ form.fields, field.name ∈ knownFields := by
  unfold refuseUnknown
  cases hfind : form.fields.find? fun field => !knownFields.contains field.name with
  | none =>
    have hknown : ∀ field ∈ form.fields, field.name ∈ knownFields := by
      intro field hmem
      have hfield := List.find?_eq_none.1 hfind field hmem
      simpa only [Bool.not_eq_true, Bool.not_eq_false', List.contains_iff_mem] using hfield
    exact ⟨fun _ => hknown, fun _ => rfl⟩
  | some field =>
    have hunknown : ¬ field.name ∈ knownFields := by
      simpa only [Bool.not_eq_true', ← Bool.not_eq_true, List.contains_iff_mem] using List.find?_some hfind
    constructor
    · intro h
      cases h
    · intro hknown
      exact absurd (hknown field (List.mem_of_find?_eq_some hfind)) hunknown

/-- The reader finds the kind that head and atom tell. -/
theorem kind_of_tellsKind {form : Form} {kind : Node.Kind} (h : TellsKind form.head form.argument? kind)
    (pos : Position) : form.kind pos = .ok kind := by
  obtain ⟨head, argument?, fields, children⟩ := form
  -- Each constructor names the head and the atom, which decide every branch of the reader.
  cases h with
  | root => rfl
  | rule selector pos => rfl
  | unresolvedRule pos => rfl
  | marker target pos => rfl
  | text text pos htag | noText pos htag | bare htag =>
    have hhead : head ≠ Node.rootTag ∧ head ≠ "rule" ∧ head ≠ "inherit" := by
      simpa [Node.rootTag] using htag
    simp only [Form.kind, if_neg hhead.1, if_neg hhead.2.1, if_neg hhead.2.2]
    rfl

theorem requireArgument_eq_ok {form : Form} {what : Expectation} {pos : Position} {argument : SExp}
    (h : form.requireArgument what pos = .ok argument) : form.argument? = some argument := by
  unfold requireArgument at h
  split at h
  · next hargument =>
    cases h
    exact hargument
  · cases h

/-- Whatever kind the reader finds, head and atom tell it. -/
theorem tellsKind_of_kind {form : Form} {pos : Position} {kind : Node.Kind} (h : form.kind pos = .ok kind) :
    TellsKind form.head form.argument? kind := by
  obtain ⟨head, argument?, fields, children⟩ := form
  unfold Form.kind at h
  dsimp only at h ⊢
  by_cases hroot : head = Node.rootTag
  · rw [if_pos hroot] at h
    subst hroot
    cases argument? with
    | some argument => cases h
    | none =>
      cases h
      exact .root
  rw [if_neg hroot] at h
  by_cases hrule : head = "rule"
  · rw [if_pos hrule] at h
    subst hrule
    obtain ⟨argument, hargument, h⟩ := Except.bind_eq_ok h
    obtain ⟨selector, hselector, h⟩ := Except.bind_eq_ok h
    cases h
    cases requireArgument_eq_ok hargument
    obtain ⟨text, pos, rfl, rfl⟩ | ⟨pos, rfl, rfl⟩ := SExp.asOptionalString_eq_ok hselector
    · exact .rule text pos
    · exact .unresolvedRule pos
  rw [if_neg hrule] at h
  by_cases hinherit : head = "inherit"
  · rw [if_pos hinherit] at h
    subst hinherit
    obtain ⟨argument, hargument, h⟩ := Except.bind_eq_ok h
    obtain ⟨target, htarget, h⟩ := Except.bind_eq_ok h
    cases h
    cases requireArgument_eq_ok hargument
    obtain ⟨pos, rfl⟩ := SExp.asString_eq_ok_iff.1 htarget
    exact .marker target pos
  rw [if_neg hinherit] at h
  have htag : head ∉ ["stylesheet", "rule", "inherit"] := by
    simpa using (show head ≠ "stylesheet" ∧ head ≠ "rule" ∧ head ≠ "inherit" from ⟨hroot, hrule, hinherit⟩)
  cases argument? with
  | none =>
    cases h
    exact .bare htag
  | some argument =>
    obtain ⟨text?, htext, h⟩ := Except.bind_eq_ok h
    cases h
    obtain ⟨text, pos, rfl, rfl⟩ | ⟨pos, rfl, rfl⟩ := SExp.asOptionalString_eq_ok htext
    · exact .text text pos htag
    · exact .noText pos htag

/-- What a list of this form at the given place says about its own node, in the given file unless it names another. -/
structure Says (form : Form) (file : String) (pos : Position) (kind : Node.Kind) (inherited : Bool)
    (location : Location) : Prop where
  /-- A field has one of three names. -/
  known : ∀ field ∈ form.fields, field.name ∈ ["file", "line", "inherited"]
  /-- Without a field for it the node is in the file around it, -/
  file : FieldTells form.fields "file" file SExp.IsText location.filename
  /-- on the line of its opening parenthesis, -/
  line : FieldTells form.fields "line" pos.line SExp.IsLine location.line
  /-- and not inherited. -/
  inherited : FieldTells form.fields "inherited" false SExp.IsTruth inherited
  /-- What it is, is said by head and atom. -/
  kind : TellsKind form.head form.argument? kind

/-- **Reading the header finds what the list says.** -/
theorem header_eq_ok_iff {form : Form} {file : String} {pos : Position} {n : Node} :
    form.header file pos = .ok n ↔ form.Says file pos n.kind n.inherited n.location ∧ n.children = [] := by
  constructor
  · intro h
    obtain ⟨hlocation, hinherited, hknown, hkind, hchildren⟩ := header_eq_ok h
    obtain ⟨hfile, hline⟩ := location_eq_ok hlocation
    rw [inherited_eq] at hinherited
    refine ⟨⟨refuseUnknown_eq_ok_iff.1 hknown, ?_, ?_, ?_, tellsKind_of_kind hkind⟩, hchildren⟩
    · exact (field_eq_ok_iff SExp.asString_eq_ok_iff).1 hfile
    · exact (field_eq_ok_iff SExp.asNumber_eq_ok_iff).1 hline
    · exact (field_eq_ok_iff SExp.asBool_eq_ok_iff).1 hinherited
  · rintro ⟨h, hchildren⟩
    have hfile := (field_eq_ok_iff SExp.asString_eq_ok_iff).2 h.file
    have hline := (field_eq_ok_iff SExp.asNumber_eq_ok_iff).2 h.line
    have hinherited := (field_eq_ok_iff SExp.asBool_eq_ok_iff).2 h.inherited
    rw [header, location_eq, inherited_eq, hfile, hline, hinherited, refuseUnknown_eq_ok_iff.2 h.known,
      kind_of_tellsKind h.kind pos]
    obtain ⟨kind, children, inherited, location⟩ := n
    cases hchildren
    rfl

end Form

namespace Node

/-! ## The tree -/

mutual

/-- Whether the expression describes the tree, in the given file unless it names another. -/
inductive Denotes : String → SExp → Node → Prop
  /-- It is a list with a symbol at its head. Its items say what its node is, and the lists among them describe the
      children, which are in the file that a marker inherits from, or else in the file of their parent. -/
  | list {file head : String} {headPos pos : Position} {items : List Item} {kind : Kind} {inherited : Bool}
      {location : Location} {children : List Node} : ArgumentFirst items →
      (Form.ofItems head items).Says file pos kind inherited location →
      DenoteAll (kind.childFile location.filename) (items.filterMap Item.child?) children →
      Denotes file (.list (.atom (.symbol head) headPos :: items.flatMap Item.elements) pos)
        { kind, children, inherited, location }

/-- Whether the expressions describe the trees, one by one. -/
inductive DenoteAll : String → List SExp → List Node → Prop
  | nil {file : String} : DenoteAll file [] []
  | cons {file : String} {e : SExp} {n : Node} {es : List SExp} {ns : List Node} : Denotes file e n →
      DenoteAll file es ns → DenoteAll file (e :: es) (n :: ns)

end

/-- If each list among the expressions that is read describes the tree it is read to, so do all of them. -/
theorem denoteAll_of_ofElements {file : String} {es : List SExp} (hlists : ∀ e ∈ es, e.isList = true)
    (h : ∀ e ∈ es, ∀ {n : Node}, ofSExp file e = .ok n → Denotes file e n) :
    ∀ {ns : List Node}, ofElements file false es = .ok ns → DenoteAll file es ns := by
  induction es with
  | nil =>
    intro ns hread
    rw [ofElements] at hread
    cases hread
    exact .nil
  | cons e es ih =>
    intro ns hread
    obtain ⟨hlist, hothers⟩ := List.forall_mem_cons.1 hlists
    obtain ⟨hfirst, hlater⟩ := List.forall_mem_cons.1 h
    cases e with
    | atom a pos => cases hlist
    | list elements pos =>
      rw [Form.ofElements_list] at hread
      obtain ⟨child, hchild, hread⟩ := Except.bind_eq_ok hread
      obtain ⟨children, hchildren, hread⟩ := Except.bind_eq_ok hread
      cases hread
      exact .cons (hfirst hchild) (ih hothers hlater hchildren)

/-- If each expression is read to the tree that it describes, so are all of them. -/
theorem ofElements_of_denoteAll {file : String} {es : List SExp}
    (h : ∀ e ∈ es, ∀ {n : Node}, Denotes file e n → ofSExp file e = .ok n) :
    ∀ {ns : List Node}, DenoteAll file es ns → ofElements file false es = .ok ns := by
  induction es with
  | nil =>
    intro ns hdenotes
    cases hdenotes
    rw [ofElements]
  | cons e es ih =>
    intro ns hdenotes
    obtain ⟨hfirst, hlater⟩ := List.forall_mem_cons.1 h
    cases hdenotes with
    | cons hchild hchildren =>
      have hread := hfirst hchild
      -- Only a list describes a tree.
      cases hchild with
      | list =>
        rw [Form.ofElements_list, hread, ih hlater hchildren]
        rfl

/-- The expressions that describe children are lists among the items. -/
theorem exists_child_of_mem {items : List Item} {e : SExp} (he : e ∈ items.filterMap Item.child?) :
    ∃ elements pos, e = .list elements pos ∧ Item.child elements pos ∈ items := by
  obtain ⟨item, hitem, hchild⟩ := List.mem_filterMap.1 he
  cases item with
  | argument a pos plain => cases hchild
  | field f => cases hchild
  | child elements pos =>
    cases hchild
    exact ⟨elements, pos, rfl, hitem⟩

theorem isList_of_mem_children {items : List Item} : ∀ e ∈ items.filterMap Item.child?, e.isList = true := by
  intro e he
  obtain ⟨elements, pos, rfl, -⟩ := exists_child_of_mem he
  rfl

theorem mem_elements_of_mem_children {items : List Item} {e : SExp} (he : e ∈ items.filterMap Item.child?)
    (first : SExp) : e ∈ first :: items.flatMap Item.elements := by
  obtain ⟨elements, pos, rfl, hitem⟩ := exists_child_of_mem he
  exact List.mem_cons_of_mem _ (List.mem_flatMap.2 ⟨_, hitem, List.mem_singleton.2 rfl⟩)

/-- Whatever is read is described. -/
theorem denotes_of_ofSExp (e : SExp) : ∀ {file : String} {n : Node}, ofSExp file e = .ok n → Denotes file e n := by
  induction e using SExp.elementInduction with
  | atom a pos =>
    intro file n h
    rw [ofSExp] at h
    cases h
  | list elements pos ih =>
    intro file n h
    rw [Form.ofSExp_list] at h
    obtain ⟨form, hform, h⟩ := Except.bind_eq_ok h
    obtain ⟨node, hnode, h⟩ := Except.bind_eq_ok h
    obtain ⟨children, hchildren, h⟩ := Except.bind_eq_ok h
    cases h
    rw [Form.ofElements_of_split _ hform] at hchildren
    obtain ⟨head, headPos, items, rfl, hfirst, rfl⟩ := Form.split_eq_ok_iff.1 hform
    apply Denotes.list hfirst (Form.header_eq_ok_iff.1 hnode).1
    apply denoteAll_of_ofElements isList_of_mem_children _ hchildren
    intro e he
    exact ih e (mem_elements_of_mem_children he _)

/-- Whatever is described is read. -/
theorem ofSExp_of_denotes (e : SExp) : ∀ {file : String} {n : Node}, Denotes file e n → ofSExp file e = .ok n := by
  induction e using SExp.elementInduction with
  | atom a pos =>
    intro file n h
    cases h
  | list elements pos ih =>
    intro file n h
    cases h with
    | @list _ head headPos _ items kind inherited location children hfirst htold hchildren =>
      have hform : Form.split (.atom (.symbol head) headPos :: items.flatMap Item.elements) pos
          = .ok (.ofItems head items) :=
        Form.split_eq_ok_iff.2 ⟨head, headPos, items, rfl, hfirst, rfl⟩
      have hheader : (Form.ofItems head items).header file pos = .ok { kind, inherited, location } :=
        Form.header_eq_ok_iff.2 ⟨htold, rfl⟩
      have hread : ofElements (kind.childFile location.filename) false (Form.ofItems head items).children
          = .ok children := by
        apply ofElements_of_denoteAll _ hchildren
        intro e he
        exact ih e (mem_elements_of_mem_children he _)
      rw [← Form.ofElements_of_split _ hform] at hread
      rw [Form.ofSExp_list, hform]
      show (Form.ofItems head items).header file pos >>= _ = _
      rw [hheader]
      show ofElements (kind.childFile location.filename) false _ >>= _ = _
      rw [hread]
      rfl

/-- The notation is not ambiguous. -/
theorem Denotes.unique {file : String} {e : SExp} {n m : Node} (h : Denotes file e n) (h' : Denotes file e m) :
    n = m := by
  have hread := ofSExp_of_denotes e h
  rw [ofSExp_of_denotes e h'] at hread
  exact (Except.ok.inj hread).symm

/-- **The reader accepts exactly the notation**: an expression is read to a tree if and only if it describes that tree,
    whatever the expression and the file. -/
theorem ofSExp_eq_ok_iff_denotes (file : String) (e : SExp) (n : Node) :
    ofSExp file e = .ok n ↔ Denotes file e n :=
  ⟨denotes_of_ofSExp e, ofSExp_of_denotes e⟩

end Node

end StyleTree
