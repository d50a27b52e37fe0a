import StyleTree.Proofs.Node.Notation

/-!
# `Proofs.Node.Rearranged` — fields may stand anywhere

Behind its head a list is a row of items, and a field is an item of its own: a keyword together with the element
behind it. Whether an atom is welcome depends on the atoms and lists before it and never on a field, the children are
the lists in their order, and what a field says is looked up by its name. So if no two fields have the same name, their
places say nothing: each of them can be moved to any other place between the items (`FieldsMoved`, `Denotes.of_moved`).

Inside a list that is rearranged other lists may be. For what the outer list says, it only matters that each of them
describes the trees that it did (`SExp.Alike`): a list is no value of a field that is ever accepted, so lists count as
children alone. By induction on the expression the two make `ofSExp_rearranged`, where fields are moved in any number of
lists at once.
-/

namespace StyleTree

/-! ## One list -/

namespace Item

/-- Whether the item is no field. -/
def isOther (item : Item) : Bool :=
  item.field?.isNone

/-- What is looked for among items that are no fields is found without the fields. -/
theorem filterMap_isOther {α : Type} {f : Item → Option α} (hf : ∀ field, f (.field field) = none)
    (items : List Item) : (items.filter isOther).filterMap f = items.filterMap f := by
  rw [List.filterMap_filter]
  refine List.filterMap_congr fun item _ => ?_
  cases item with
  | field field => exact (hf field).symm
  | argument a pos plain => rfl
  | child elements pos => rfl

/-- A list can be cut into items in one way only. -/
theorem eq_of_flatMap_elements {items items' : List Item}
    (h : items.flatMap elements = items'.flatMap elements) : items = items' := by
  induction items generalizing items' with
  | nil =>
    cases items' with
    | nil => rfl
    | cons item' items' => cases item' <;> cases h
  | cons item items ih =>
    cases items' with
    | nil => cases item <;> cases h
    | cons item' items' =>
      rw [List.flatMap_cons, List.flatMap_cons] at h
      -- The first element shows what the item is, and so how long it is.
      cases item with
      | argument a pos plain =>
        cases item' with
        | argument a' pos' plain' =>
          obtain ⟨hatom, hrest⟩ := List.cons.inj h
          cases hatom
          rw [ih hrest]
        | field f' => exact absurd (SExp.atom.inj (List.cons.inj h).1).1 (plain f'.name)
        | child elements' pos' => cases h
      | field f =>
        cases item' with
        | argument a' pos' plain' => exact absurd (SExp.atom.inj (List.cons.inj h).1).1.symm (plain' f.name)
        | field f' =>
          obtain ⟨name, pos, value⟩ := f
          obtain ⟨name', pos', value'⟩ := f'
          obtain ⟨hkeyword, hbehind⟩ := List.cons.inj h
          obtain ⟨hvalue, hrest⟩ := List.cons.inj hbehind
          cases hkeyword
          cases hvalue
          rw [ih hrest]
        | child elements' pos' => cases h
      | child elements pos =>
        cases item' with
        | argument a' pos' plain' => cases h
        | field f' => cases h
        | child elements' pos' =>
          obtain ⟨hlist, hrest⟩ := List.cons.inj h
          cases hlist
          rw [ih hrest]

end Item

/-- Whether the second list has the items of the first, and all but the fields in the same order. -/
structure FieldsMoved (items moved : List Item) : Prop where
  perm : items.Perm moved
  others : items.filter Item.isOther = moved.filter Item.isOther

/-- Whether no two fields among the items have the same name. -/
def DistinctFields (items : List Item) : Prop :=
  ((items.filterMap Item.field?).map Field.name).Nodup

instance (items : List Item) : Decidable (DistinctFields items) :=
  inferInstanceAs (Decidable (List.Nodup _))

namespace FieldsMoved

variable {items moved : List Item}

/-- Fields that were moved can be moved back. -/
theorem symm (h : FieldsMoved items moved) : FieldsMoved moved items :=
  ⟨h.perm.symm, h.others.symm⟩

/-- To move fields neither gives two the same name nor takes away that they have one. -/
theorem distinctFields (h : FieldsMoved items moved) (hdistinct : DistinctFields items) : DistinctFields moved :=
  ((h.perm.filterMap Item.field?).map Field.name).nodup_iff.1 hdistinct

end FieldsMoved

/-- One field moves over the items behind it. -/
theorem fieldsMoved_of_move (before between after : List Item) (field : Field) :
    FieldsMoved (before ++ .field field :: (between ++ after)) (before ++ (between ++ .field field :: after)) where
  perm := List.Perm.append_left before List.perm_middle.symm
  others := by simp [List.filter_append, Item.isOther, Item.field?]

/-- Only atoms and lists count for whether the atom comes first. -/
theorem argumentFirst_iff {items : List Item} :
    ArgumentFirst items ↔ (items.filter Item.isOther).Pairwise fun _ later => later.argument? = none := by
  rw [List.pairwise_filter]
  refine List.Pairwise.iff fun earlier later => ?_
  cases later with
  | argument a pos plain => cases earlier <;> simp [Item.argument?, Item.field?, Item.isOther]
  | field f => simp [Item.argument?]
  | child elements pos => simp [Item.argument?]

/-- What is looked up by name does not depend on the order, if no two fields have the same name. -/
theorem FieldTells.of_perm {α : Type} {fields moved : List Field} {name : String} {missing a : α}
    {means : α → SExp → Prop} (hperm : fields.Perm moved) (hnames : (fields.map Field.name).Nodup)
    (h : FieldTells fields name missing means a) : FieldTells moved name missing means a := by
  cases h with
  | @first before after field _ hfields _ hname hmeans =>
    have hfield : field ∈ moved := hperm.subset (hfields ▸ List.mem_append_cons_self)
    obtain ⟨before', after', rfl⟩ := List.append_of_mem hfield
    refine .first rfl (fun earlier hearlier hsame => ?_) hname hmeans
    have hmoved : ((before' ++ field :: after').map Field.name).Nodup := (hperm.map Field.name).nodup_iff.1 hnames
    rw [List.map_append, List.nodup_append] at hmoved
    exact hmoved.2.2 _ (List.mem_map_of_mem hearlier) _ (List.mem_map_of_mem List.mem_cons_self) (hsame.trans hname.symm)
  | absent hnone => exact .absent fun field hfield => hnone field (hperm.symm.subset hfield)

namespace Node

section OneList

variable {file head : String} {headPos pos : Position} {items moved : List Item} {n : Node}

/-- What a list of the given items describes. -/
theorem denotes_form_iff :
    Denotes file (.list (.atom (.symbol head) headPos :: items.flatMap Item.elements) pos) n ↔
      ArgumentFirst items ∧ (Form.ofItems head items).Says file pos n.kind n.inherited n.location ∧
        DenoteAll (n.kind.childFile n.location.filename) (items.filterMap Item.child?) n.children := by
  constructor
  · intro h
    generalize he : SExp.list (.atom (.symbol head) headPos :: items.flatMap Item.elements) pos = e at h
    cases h with
    | @list _ head' headPos' pos' items' kind inherited location children hfirst htold hchildren =>
      obtain ⟨helements, rfl⟩ := SExp.list.inj he
      obtain ⟨hhead, hitems⟩ := List.cons.inj helements
      cases hhead
      cases Item.eq_of_flatMap_elements hitems
      exact ⟨hfirst, htold, hchildren⟩
  · rintro ⟨hfirst, htold, hchildren⟩
    obtain ⟨kind, children, inherited, location⟩ := n
    exact .list hfirst htold hchildren

/-- **A list describes the same trees wherever its fields stand**, if no two of them have the same name. -/
theorem Denotes.of_moved (hmoved : FieldsMoved items moved) (hdistinct : DistinctFields items)
    (h : Denotes file (.list (.atom (.symbol head) headPos :: items.flatMap Item.elements) pos) n) :
    Denotes file (.list (.atom (.symbol head) headPos :: moved.flatMap Item.elements) pos) n := by
  rw [denotes_form_iff] at h ⊢
  obtain ⟨hfirst, htold, hchildren⟩ := h
  have hfields : (items.filterMap Item.field?).Perm (moved.filterMap Item.field?) := hmoved.perm.filterMap _
  have hargument : items.findSome? Item.argument? = moved.findSome? Item.argument? := by
    rw [← List.head?_filterMap, ← List.head?_filterMap, ← Item.filterMap_isOther (fun _ => rfl) items, hmoved.others,
      Item.filterMap_isOther fun _ => rfl]
  refine ⟨?_, ⟨?_, ?_, ?_, ?_, ?_⟩, ?_⟩
  · rw [argumentFirst_iff, hmoved.others] at hfirst
    exact argumentFirst_iff.2 hfirst
  · exact fun field hfield => htold.known field (hfields.symm.subset hfield)
  · exact htold.file.of_perm hfields hdistinct
  · exact htold.line.of_perm hfields hdistinct
  · exact htold.inherited.of_perm hfields hdistinct
  · show TellsKind head (moved.findSome? Item.argument?) n.kind
    rw [← hargument]
    exact htold.kind
  · rwa [← Item.filterMap_isOther (fun _ => rfl) moved, ← hmoved.others, Item.filterMap_isOther fun _ => rfl]

end OneList

end Node

/-! ## The lists inside -/

/-- Whether the expressions are the same atom, or lists that describe the same trees. -/
inductive SExp.Alike : SExp → SExp → Prop
  | atom (a : Atom) (pos : Position) : Alike (.atom a pos) (.atom a pos)
  | list {elements elements' : List SExp} {pos pos' : Position} :
      (∀ file n, Node.Denotes file (.list elements pos) n ↔ Node.Denotes file (.list elements' pos') n) →
      Alike (.list elements pos) (.list elements' pos')

/-- Whether the fields have the same name and values that are alike. -/
def Field.Alike (field field' : Field) : Prop :=
  field.name = field'.name ∧ field.value.Alike field'.value

/-- Whether the items are the same but for lists that describe the same trees. -/
inductive Item.Alike : Item → Item → Prop
  | argument (a : Atom) (pos : Position) (plain : ∀ name, a ≠ .keyword name) :
      Alike (.argument a pos plain) (.argument a pos plain)
  | field {field field' : Field} : field.Alike field' → Alike (.field field) (.field field')
  | child {elements elements' : List SExp} {pos pos' : Position} :
      (SExp.list elements pos).Alike (.list elements' pos') → Alike (.child elements pos) (.child elements' pos')

theorem SExp.Alike.symm {e e' : SExp} (h : e.Alike e') : e'.Alike e := by
  cases h with
  | atom a pos => exact .atom a pos
  | list h => exact .list fun file n => (h file n).symm

/-- Expressions that are alike denote the same trees. -/
theorem SExp.Alike.denotes_iff {e e' : SExp} (h : e.Alike e') (file : String) (n : Node) :
    Node.Denotes file e n ↔ Node.Denotes file e' n := by
  cases h with
  | atom a pos => exact Iff.rfl
  | list h => exact h file n

/-- Elements that are alike are cut into items that are alike. -/
theorem exists_items_of_alike {items : List Item} : ∀ {es : List SExp},
    List.Forall₂ SExp.Alike (items.flatMap Item.elements) es →
      ∃ items', es = items'.flatMap Item.elements ∧ List.Forall₂ Item.Alike items items' := by
  induction items with
  | nil =>
    intro es h
    cases h
    exact ⟨[], rfl, .nil⟩
  | cons item items ih =>
    intro es h
    rw [List.flatMap_cons] at h
    cases item with
    | argument a pos plain =>
      obtain ⟨_, rest, hatom, hrest, rfl⟩ := List.forall₂_cons_left_iff.1 h
      obtain ⟨items', rfl, hitems⟩ := ih hrest
      cases hatom
      exact ⟨.argument a pos plain :: items', rfl, .cons (.argument a pos plain) hitems⟩
    | field f =>
      obtain ⟨_, behind, hkeyword, hbehind, rfl⟩ := List.forall₂_cons_left_iff.1 h
      obtain ⟨value', rest, hvalue, hrest, rfl⟩ := List.forall₂_cons_left_iff.1 hbehind
      obtain ⟨items', rfl, hitems⟩ := ih hrest
      cases hkeyword
      exact ⟨.field ⟨f.name, f.pos, value'⟩ :: items', rfl, .cons (.field ⟨rfl, hvalue⟩) hitems⟩
    | child elements pos =>
      obtain ⟨_, rest, hlist, hrest, rfl⟩ := List.forall₂_cons_left_iff.1 h
      obtain ⟨items', rfl, hitems⟩ := ih hrest
      cases hlist with
      | @list _ elements' _ pos' hsame =>
        exact ⟨.child elements' pos' :: items', rfl, .cons (.child (.list hsame)) hitems⟩

namespace Item.Alike

variable {item item' : Item}

theorem field? (h : item.Alike item') : Option.Rel Field.Alike item.field? item'.field? := by
  cases h with
  | field h => exact .some h
  | argument | child => exact .none

theorem child? (h : item.Alike item') : Option.Rel SExp.Alike item.child? item'.child? := by
  cases h with
  | child h => exact .some h
  | argument | field => exact .none

theorem argument? (h : item.Alike item') : item.argument? = item'.argument? := by
  cases h <;> rfl

theorem isOther (h : item.Alike item') : item.isOther = item'.isOther := by
  cases h <;> rfl

end Item.Alike

/-- A field is the first of its name, or else one behind it is. -/
theorem fieldTells_cons {α : Type} {field : Field} {fields : List Field} {name : String} {missing a : α}
    {means : α → SExp → Prop} : FieldTells (field :: fields) name missing means a ↔
      field.name = name ∧ means a field.value ∨ field.name ≠ name ∧ FieldTells fields name missing means a := by
  constructor
  · intro h
    cases h with
    | absent hnone =>
      obtain ⟨hself, hothers⟩ := List.forall_mem_cons.1 hnone
      exact .inr ⟨hself, .absent hothers⟩
    | @first before after found _ hfields hbefore hname hmeans =>
      cases before with
      | nil =>
        cases hfields
        exact .inl ⟨hname, hmeans⟩
      | cons earlier before =>
        cases hfields
        obtain ⟨hself, hothers⟩ := List.forall_mem_cons.1 hbefore
        exact .inr ⟨hself, .first rfl hothers hname hmeans⟩
  · rintro (⟨hname, hmeans⟩ | ⟨hname, h⟩)
    · have hfields : field :: fields = [] ++ field :: fields := rfl
      exact .first hfields (fun _ hmem => nomatch hmem) hname hmeans
    · cases h with
      | absent hnone => exact .absent (List.forall_mem_cons.2 ⟨hname, hnone⟩)
      | @first before after found _ hfields hbefore hname' hmeans =>
        subst hfields
        rw [← List.cons_append]
        exact .first rfl (List.forall_mem_cons.2 ⟨hname, hbefore⟩) hname' hmeans

/-- What is said by an atom is still said if lists are replaced by others. -/
theorem FieldTells.of_alike {α : Type} {fields fields' : List Field} {name : String} {missing a : α}
    {means : α → SExp → Prop} (hatoms : ∀ elements pos, ¬ means a (.list elements pos))
    (halike : List.Forall₂ Field.Alike fields fields') (h : FieldTells fields name missing means a) :
    FieldTells fields' name missing means a := by
  induction halike with
  | nil => exact h
  | @cons field field' fields fields' hfield _ ih =>
    obtain ⟨hsame, hvalue⟩ := hfield
    rw [fieldTells_cons] at h ⊢
    rw [← hsame]
    obtain ⟨hname, hmeans⟩ | ⟨hname, h⟩ := h
    · refine .inl ⟨hname, ?_⟩
      generalize field.value = value, field'.value = value' at hvalue hmeans
      cases hvalue with
      | atom a pos => exact hmeans
      | list => exact absurd hmeans (hatoms _ _)
    · exact .inr ⟨hname, ih h⟩

namespace Node

section ListsInside

variable {items items' : List Item}

/-- Items that are alike have their atom at the same place. -/
theorem argumentFirst_of_alike (halike : List.Forall₂ Item.Alike items items') (hfirst : ArgumentFirst items) :
    ArgumentFirst items' := by
  rw [argumentFirst_iff] at hfirst ⊢
  have hothers : List.Forall₂ Item.Alike (items.filter Item.isOther) (items'.filter Item.isOther) :=
    List.rel_filter (fun _ _ h => iff_of_eq (congrArg (· = true) h.isOther)) halike
  have hsame : (items.filter Item.isOther).map Item.argument? = (items'.filter Item.isOther).map Item.argument? :=
    hothers.map_eq_map fun _ _ h => h.argument?
  have hmapped := List.pairwise_map (f := Item.argument?) (R := fun _ later => later = none).2 hfirst
  rw [hsame] at hmapped
  exact List.pairwise_map.1 hmapped

/-- What a list says about its own node rests on its head, its atom and its fields, in which items that are alike
    agree as far as they are accepted. -/
theorem says_of_alike {head file : String} {pos : Position} {kind : Kind} {inherited : Bool} {location : Location}
    (halike : List.Forall₂ Item.Alike items items')
    (h : (Form.ofItems head items).Says file pos kind inherited location) :
    (Form.ofItems head items').Says file pos kind inherited location := by
  have hfields : List.Forall₂ Field.Alike (items.filterMap Item.field?) (items'.filterMap Item.field?) :=
    List.rel_filterMap (fun _ _ h => h.field?) halike
  have hnames : (items.filterMap Item.field?).map Field.name = (items'.filterMap Item.field?).map Field.name :=
    hfields.map_eq_map fun _ _ h => h.1
  have hargument : items.map Item.argument? = items'.map Item.argument? :=
    halike.map_eq_map fun _ _ h => h.argument?
  refine ⟨?_, ?_, ?_, ?_, ?_⟩
  · intro field' hfield'
    obtain ⟨field, hfield, hname⟩ := List.mem_map.1 (hnames ▸ List.mem_map_of_mem hfield')
    exact hname ▸ h.known field hfield
  · exact h.file.of_alike (fun elements pos ⟨_, htext⟩ => nomatch htext) hfields
  · exact h.line.of_alike (fun elements pos ⟨_, _, hline, _⟩ => nomatch hline) hfields
  · exact h.inherited.of_alike (fun elements pos ⟨_, htruth⟩ => nomatch htruth) hfields
  · have hfound : items.findSome? Item.argument? = items'.findSome? Item.argument? := by
      have hfound := congrArg (List.findSome? id) hargument
      rwa [List.findSome?_map, List.findSome?_map] at hfound
    show TellsKind head (items'.findSome? Item.argument?) kind
    rw [← hfound]
    exact h.kind

theorem DenoteAll.of_alike {file : String} {es es' : List SExp} {ns : List Node}
    (halike : List.Forall₂ SExp.Alike es es') (h : DenoteAll file es ns) : DenoteAll file es' ns := by
  induction halike generalizing ns with
  | nil => exact h
  | @cons e e' es es' hself _ ih =>
    cases h with
    | cons hfirst hlater => exact .cons ((hself.denotes_iff file _).1 hfirst) (ih hlater)

/-- **A list describes the same trees if the lists inside it do.** -/
theorem Denotes.of_alike {file : String} {elements elements' : List SExp} {pos : Position} {n : Node}
    (halike : List.Forall₂ SExp.Alike elements elements') (h : Denotes file (.list elements pos) n) :
    Denotes file (.list elements' pos) n := by
  cases h with
  | @list _ head headPos _ items kind inherited location children hfirst htold hchildren =>
    obtain ⟨_, rest, hhead, hrest, rfl⟩ := List.forall₂_cons_left_iff.1 halike
    obtain ⟨items', rfl, hitems⟩ := exists_items_of_alike hrest
    cases hhead
    have hlists : List.Forall₂ SExp.Alike (items.filterMap Item.child?) (items'.filterMap Item.child?) :=
      List.rel_filterMap (fun _ _ h => h.child?) hitems
    exact .list (argumentFirst_of_alike hitems hfirst) (says_of_alike hitems htold) (hchildren.of_alike hlists)

end ListsInside

end Node

/-! ## Everywhere -/

namespace SExp

/-- Whether the second expression is the first with fields moved in any number of its lists: a field can be moved to any
    place behind the head that is not inside another field, if no two fields of its list have the same name. -/
inductive Rearranged : SExp → SExp → Prop
  | atom (a : Atom) (pos : Position) : Rearranged (.atom a pos) (.atom a pos)
  /-- The elements stay where they are. -/
  | list {elements elements' : List SExp} {pos : Position} : List.Forall₂ Rearranged elements elements' →
      Rearranged (.list elements pos) (.list elements' pos)
  /-- Fields are moved, and then the elements stay where they are. -/
  | form {head : String} {headPos pos : Position} {items moved : List Item} {elements' : List SExp} :
      DistinctFields items → FieldsMoved items moved →
      List.Forall₂ Rearranged (.atom (.symbol head) headPos :: moved.flatMap Item.elements) elements' →
      Rearranged (.list (.atom (.symbol head) headPos :: items.flatMap Item.elements) pos) (.list elements' pos)

theorem Rearranged.refl (e : SExp) : e.Rearranged e := by
  induction e using elementInduction with
  | atom a pos => exact .atom a pos
  | list elements pos ih => exact .list (List.forall₂_same.2 ih)

/-- If the elements of a list are alike, so are the lists. -/
theorem alike_list {elements elements' : List SExp} (h : List.Forall₂ Alike elements elements') (pos : Position) :
    (SExp.list elements pos).Alike (.list elements' pos) := by
  have hback : List.Forall₂ Alike elements' elements := (h.imp fun _ _ h => h.symm).flip
  exact .list fun file n => ⟨fun hn => hn.of_alike h, fun hn => hn.of_alike hback⟩

/-- Rearranged expressions are alike: by recursion, the lists inside are alike, and the fields of the list itself may
    be moved among them. -/
theorem alike_of_rearranged (e : SExp) : ∀ {e' : SExp}, e.Rearranged e' → e.Alike e' := by
  induction e using elementInduction with
  | atom a pos =>
    intro e' h
    cases h
    exact .atom a pos
  | list elements pos ih =>
    have hinside : ∀ {parts parts' : List SExp}, (∀ e ∈ parts, e ∈ elements) → List.Forall₂ Rearranged parts parts' →
        List.Forall₂ Alike parts parts' := by
      intro parts parts' hparts h
      exact ((List.forall₂_and_left _ _).2 ⟨hparts, h⟩).imp fun e e' h => ih e h.1 h.2
    intro e' h
    cases h with
    | list h => exact alike_list (hinside (fun e he => he) h) pos
    | @form head headPos _ items moved elements' hdistinct hmoved h =>
      have hsame : (.atom (.symbol head) headPos :: moved.flatMap Item.elements).Perm
          (.atom (.symbol head) headPos :: items.flatMap Item.elements) :=
        (hmoved.perm.symm.flatMap_right Item.elements).cons _
      have hlists := alike_list (hinside (fun e he => hsame.subset he) h) pos
      refine .list fun file n => ?_
      rw [← hlists.denotes_iff]
      exact ⟨fun hn => hn.of_moved hmoved hdistinct,
        fun hn => hn.of_moved hmoved.symm (hmoved.distinctFields hdistinct)⟩

end SExp

namespace Node

/-- **Fields may stand anywhere.** Move fields in any number of the lists of an expression, in each of which no two have
    the same name, to any other places behind the head that are not inside a field. Then either the expression describes
    the same tree as before, or it is refused as before. -/
theorem ofSExp_rearranged {e e' : SExp} (h : e.Rearranged e') (file : String) :
    (∃ n, ofSExp file e = .ok n ∧ ofSExp file e' = .ok n) ∨
      ∃ error error', ofSExp file e = .error error ∧ ofSExp file e' = .error error' := by
  have hsame := (SExp.alike_of_rearranged e h).denotes_iff file
  cases he : ofSExp file e with
  | ok n =>
    have hmoved := ofSExp_of_denotes e' ((hsame n).1 (denotes_of_ofSExp e he))
    exact .inl ⟨n, rfl, hmoved⟩
  | error error =>
    cases he' : ofSExp file e' with
    | ok n =>
      have hkept := ofSExp_of_denotes e ((hsame n).2 (denotes_of_ofSExp e' he'))
      rw [he] at hkept
      cases hkept
    | error error' => exact .inr ⟨error, error', rfl, rfl⟩

/-- A rule with a declaration, the fields of both behind everything else. -/
def trailingFields : SExp :=
  .ofList [.symbol "rule", .string ".a", .ofList [.symbol "prop", .string "x", .keyword "line", .number 9],
    .keyword "inherited", .symbol "true"]

/-- The same rule with the fields in front. -/
def leadingFields : SExp :=
  .ofList [.symbol "rule", .keyword "inherited", .symbol "true", .string ".a",
    .ofList [.symbol "prop", .keyword "line", .number 9, .string "x"]]

/-- The rule that both describe. -/
def inheritedRule : Node :=
  { rule ".a" with
    inherited := true
    location := ⟨"page.css", 0⟩
    children := [{ declaration "x" with location := ⟨"page.css", 9⟩ }] }

theorem ofSExp_rearranged_trailingFields : trailingFields.Rearranged leadingFields ∧
    ofSExp "page.css" trailingFields = .ok inheritedRule ∧ ofSExp "page.css" leadingFields = .ok inheritedRule := by
  have hprop : (SExp.ofList [.symbol "prop", .string "x", .keyword "line", .number 9]).Rearranged
      (.ofList [.symbol "prop", .keyword "line", .number 9, .string "x"]) := by
    let text : Item := .argument (.string "x") .synthetic nofun
    let line : Field := ⟨"line", .synthetic, .number 9⟩
    have hdistinct : DistinctFields [text, .field line] := by decide
    exact .form hdistinct (fieldsMoved_of_move [] [text] [] line).symm (List.forall₂_same.2 fun e _ => .refl e)
  have hrule : trailingFields.Rearranged leadingFields := by
    let selector : Item := .argument (.string ".a") .synthetic nofun
    let prop : Item := .child [.symbol "prop", .string "x", .keyword "line", .number 9] .synthetic
    let inherited : Field := ⟨"inherited", .synthetic, .symbol "true"⟩
    have hdistinct : DistinctFields [selector, prop, .field inherited] := by decide
    exact .form hdistinct (fieldsMoved_of_move [] [selector, prop] [] inherited).symm
      (.cons (.refl _) (.cons (.refl _) (.cons (.refl _) (.cons (.refl _) (.cons hprop .nil)))))
  have hok : ofSExp "page.css" trailingFields = .ok inheritedRule := by decide +kernel
  refine ⟨hrule, hok, ?_⟩
  obtain ⟨n, hn, hread⟩ | ⟨error, -, hrefused, -⟩ := ofSExp_rearranged hrule "page.css"
  · rw [hok] at hn
    cases hn
    exact hread
  · rw [hok] at hrefused
    cases hrefused

end Node

end StyleTree
