import StyleTree.Node.OfSExp
import StyleTree.Proofs.Prelude
import StyleTree.Proofs.SExp.Places

/-!
# `Proofs.Node.Form` — splitting the list that describes a node

`Form.split` takes the elements of a list apart. The proofs want to put them together: a form whose parts stand in their
usual order is found again (`split_elements`), and the same parts are found when the elements have lost their places
(`split_unplaced`). What the parts say about a node is taken from them one by one in `header_eq_ok`, and the trees
inside a list are those of the children that splitting finds (`ofElements_of_split`).
-/

namespace StyleTree

/-- The elements that a field is written with. -/
def Field.elements (field : Field) : List SExp :=
  [.atom (.keyword field.name) field.pos, field.value]

/-- The field as if it came from no text. -/
def Field.unplaced (field : Field) : Field :=
  ⟨field.name, .synthetic, field.value.unplaced⟩

namespace Form

/-- The elements of a list with the parts of the form in their usual order. -/
def elements (form : Form) (headPos : Position) : List SExp :=
  .atom (.symbol form.head) headPos :: (form.argument?.toList ++ (form.fields.flatMap Field.elements ++ form.children))

/-- The form as if it came from no text. -/
def unplaced (form : Form) : Form :=
  ⟨form.head, form.argument?.map SExp.unplaced, form.fields.map Field.unplaced, form.children.map SExp.unplaced⟩

/-- A form whose argument is an atom that is no keyword, and whose children are lists. -/
structure Proper (form : Form) : Prop where
  argument : ∀ e ∈ form.argument?, e.isList = false ∧ e.isKeyword = false
  children : ∀ e ∈ form.children, e.isList = true

/-! ## Splitting -/

section Splitting

variable (head : String) (atomWelcome : Bool)

/-- Fields are taken off whether or not an atom is welcome, and leave that as it is. -/
theorem splitRest_fields (fields : List Field) (rest : List SExp) :
    splitRest head atomWelcome (fields.flatMap Field.elements ++ rest)
      = (splitRest head atomWelcome rest).map fun form => { form with fields := fields ++ form.fields } := by
  induction fields with
  | nil => cases h : splitRest head atomWelcome rest <;> simp [h, Except.map]
  | cons field fields ih =>
    rw [List.flatMap_cons, List.append_assoc]
    show (splitRest head atomWelcome (fields.flatMap Field.elements ++ rest)).map (withField field) = _
    rw [ih]
    cases splitRest head atomWelcome rest <;> rfl

theorem splitRest_children {children : List SExp} (h : ∀ e ∈ children, e.isList = true) :
    splitRest head atomWelcome children = .ok ⟨head, none, [], children⟩ := by
  induction children generalizing atomWelcome with
  | nil => rfl
  | cons e children ih =>
    cases e with
    | atom a pos => cases h _ List.mem_cons_self
    | list elements pos =>
      rw [splitRest, ih false fun e he => h e (List.mem_cons_of_mem _ he)]
      rfl

theorem splitRest_atom {e : SExp} (hlist : e.isList = false) (hkeyword : e.isKeyword = false) (rest : List SExp) :
    splitRest head atomWelcome (e :: rest) =
      if atomWelcome then (splitRest head false rest).map (withArgument e)
      else .error (.expected .fieldOrChild e.describe e.position) := by
  cases e with
  | list elements pos => cases hlist
  | atom a pos =>
    cases a with
    | keyword name => cases hkeyword
    | _ => cases rest <;> rfl

end Splitting

/-- **A form whose parts stand in their usual order is found again.** -/
theorem split_elements {form : Form} (h : form.Proper) (headPos pos : Position) :
    split (form.elements headPos) pos = .ok form := by
  obtain ⟨head, argument?, fields, children⟩ := form
  have hrest : ∀ atomWelcome, splitRest head atomWelcome (fields.flatMap Field.elements ++ children)
      = .ok ⟨head, none, fields, children⟩ := by
    intro atomWelcome
    rw [splitRest_fields, splitRest_children head atomWelcome h.children]
    simp [Except.map]
  -- An argument is welcome only in front, where it is; the parts behind it are the same with or without one.
  show splitRest head true (argument?.toList ++ (fields.flatMap Field.elements ++ children)) = _
  cases argument? with
  | none => exact hrest true
  | some e =>
    have hatom := h.argument e rfl
    rw [Option.toList_some, List.singleton_append, splitRest_atom head true hatom.1 hatom.2, if_pos rfl, hrest]
    rfl

/-! ## No places -/

theorem isKeyword_eq_false {a : Atom} {rest : List SExp} (hlast : ∀ name, a = .keyword name → rest = [] → False)
    (hmore : ∀ name value others, a = .keyword name → rest = value :: others → False) (pos : Position) :
    (SExp.atom a pos).isKeyword = false := by
  cases a with
  | keyword name =>
    cases rest with
    | nil => exact (hlast name rfl rfl).elim
    | cons value others => exact (hmore name value others rfl rfl).elim
  | _ => rfl

/-- The parts found without the places are the parts without their places. -/
theorem splitRest_unplaced (head : String) (atomWelcome : Bool) (es : List SExp) :
    withoutPlaces id (splitRest head atomWelcome (es.map SExp.unplaced))
      = withoutPlaces unplaced (splitRest head atomWelcome es) := by
  fun_induction splitRest head atomWelcome es with
  | case1 => rfl
  | case2 atomWelcome elements pos rest ih =>
    rw [List.map_cons, SExp.unplaced_list, splitRest]
    refine withoutPlaces_map ih ?_
    rintro _ form rfl
    simp [unplaced, withChild]
  | case3 => rfl
  | case4 atomWelcome pos name value rest ih =>
    rw [List.map_cons, List.map_cons, SExp.unplaced_atom, splitRest]
    refine withoutPlaces_map ih ?_
    rintro _ form rfl
    rfl
  | case5 pos a rest hlast hmore ih =>
    -- An atom that begins no field is no keyword, with or without its place.
    have hkeyword := isKeyword_eq_false hlast hmore pos
    rw [List.map_cons, splitRest_atom head true rfl (by rwa [SExp.isKeyword_unplaced]), if_pos rfl]
    refine withoutPlaces_map ih ?_
    rintro _ form rfl
    rfl
  | case6 atomWelcome pos a rest hlast hmore hwelcome =>
    have hkeyword := isKeyword_eq_false hlast hmore pos
    rw [List.map_cons, splitRest_atom head atomWelcome rfl (by rwa [SExp.isKeyword_unplaced]), if_neg hwelcome]
    rfl

/-- **The same parts are found without the places**, or the same fault. -/
theorem split_unplaced (elements : List SExp) (pos pos' : Position) :
    withoutPlaces id (split (elements.map SExp.unplaced) pos') = withoutPlaces unplaced (split elements pos) := by
  cases elements with
  | nil => rfl
  | cons first rest =>
    have hhead := first.asSymbol_unplaced
    rw [List.map_cons, split, split]
    cases hfirst : first.asSymbol with
    | error error =>
      rw [hfirst] at hhead
      obtain ⟨error', hunplaced, herror⟩ := withoutPlaces_eq_error.1 hhead
      rw [hunplaced]
      exact congrArg Except.error herror
    | ok head =>
      rw [(eq_ok_iff_of_withoutPlaces hhead).2 hfirst]
      exact splitRest_unplaced head true rest

/-! ## Children -/

section Steps

variable (file : String) (elements rest : List SExp) (pos : Position)

/-- A list is split, its header is read, and then the trees inside it. -/
theorem ofSExp_list : Node.ofSExp file (.list elements pos) =
    split elements pos >>= fun form => form.header file pos >>= fun node =>
      Node.ofElements (node.kind.childFile node.location.filename) false elements >>= fun children =>
        .ok { node with children } := by
  rw [Node.ofSExp]
  cases split elements pos with
  | error error => rfl
  | ok form =>
    dsimp only
    show _ = form.header file pos >>= _
    cases form.header file pos with
    | error error => rfl
    | ok node =>
      dsimp only
      show _ = Node.ofElements (node.kind.childFile node.location.filename) false elements >>= _
      cases Node.ofElements (node.kind.childFile node.location.filename) false elements <;> rfl

/-- A list that no keyword takes becomes a tree. -/
theorem ofElements_list : Node.ofElements file false (.list elements pos :: rest) =
    Node.ofSExp file (.list elements pos) >>= fun child =>
      Node.ofElements file false rest >>= fun children => .ok (child :: children) := by
  rw [Node.ofElements, if_neg Bool.false_ne_true, if_pos (show (SExp.list elements pos).isList = true from rfl)]
  cases Node.ofSExp file (.list elements pos) with
  | error error => rfl
  | ok child =>
    dsimp only
    show _ = Node.ofElements file false rest >>= _
    cases Node.ofElements file false rest <;> rfl

theorem ofElements_atom (a : Atom) : Node.ofElements file false (.atom a pos :: rest)
    = Node.ofElements file (SExp.atom a pos).isKeyword rest := by
  rw [Node.ofElements, if_neg Bool.false_ne_true]
  rfl

theorem ofElements_taken (e : SExp) : Node.ofElements file true (e :: rest) = Node.ofElements file false rest := by
  rw [Node.ofElements, if_pos rfl]

end Steps

/-- The trees inside a list are those of its children: a reader passes over the other elements, and over the values of
    fields even if they are lists. -/
theorem ofElements_of_splitRest (file : String) {head : String} {atomWelcome : Bool} {es : List SExp} {form : Form}
    (h : splitRest head atomWelcome es = .ok form) :
    Node.ofElements file false es = Node.ofElements file false form.children := by
  fun_induction splitRest head atomWelcome es generalizing form with
  | case1 =>
    cases h
    rfl
  | case2 atomWelcome elements pos rest ih =>
    obtain ⟨inner, hinner, rfl⟩ := Except.map_eq_ok h
    simp only [withChild, Node.ofElements, SExp.isList, if_true, ih hinner]
  | case3 => cases h
  | case4 atomWelcome pos name value rest ih =>
    obtain ⟨inner, hinner, rfl⟩ := Except.map_eq_ok h
    have hrest := ih hinner
    exact hrest
  | case5 pos a rest hlast hmore ih =>
    -- The argument is no keyword, so what follows it is not passed over as the value of a field.
    obtain ⟨inner, hinner, rfl⟩ := Except.map_eq_ok h
    have hkeyword := isKeyword_eq_false hlast hmore pos
    have hrest := ih hinner
    rw [Node.ofElements, if_neg (by simp), if_neg (by simp [SExp.isList]), hkeyword]
    exact hrest
  | case6 => cases h

/-- **The trees inside a list are those of the children that splitting finds.** -/
theorem ofElements_of_split (file : String) {elements : List SExp} {pos : Position} {form : Form}
    (h : split elements pos = .ok form) :
    Node.ofElements file false elements = Node.ofElements file false form.children := by
  cases elements with
  | nil => cases h
  | cons first rest =>
    rw [split] at h
    cases first with
    | list elements pos => cases h
    | atom a pos =>
      cases a with
      | symbol head =>
        change splitRest head true rest = .ok form at h
        have hrest := ofElements_of_splitRest file h
        exact hrest
      | _ => cases h

/-! ## What the parts say -/

theorem splitRest_head {head : String} {atomWelcome : Bool} {es : List SExp} {form : Form}
    (h : splitRest head atomWelcome es = .ok form) : form.head = head := by
  fun_induction splitRest head atomWelcome es generalizing form with
  | case1 => cases h; rfl
  | case2 atomWelcome elements pos rest ih =>
    obtain ⟨inner, hinner, rfl⟩ := Except.map_eq_ok h
    exact (ih hinner : inner.head = head)
  | case3 => cases h
  | case4 atomWelcome pos name value rest ih =>
    obtain ⟨inner, hinner, rfl⟩ := Except.map_eq_ok h
    exact (ih hinner : inner.head = head)
  | case5 pos a rest _ _ ih =>
    obtain ⟨inner, hinner, rfl⟩ := Except.map_eq_ok h
    exact (ih hinner : inner.head = head)
  | case6 => cases h

/-- The head of a form is a symbol of its list. -/
theorem exists_head_of_split {elements : List SExp} {pos : Position} {form : Form}
    (h : split elements pos = .ok form) : ∃ pos', .atom (.symbol form.head) pos' ∈ elements := by
  cases elements with
  | nil => cases h
  | cons first rest =>
    rw [split] at h
    cases first with
    | list elements pos => cases h
    | atom a pos =>
      cases a with
      | symbol head =>
        refine ⟨pos, ?_⟩
        rw [splitRest_head h]
        exact List.mem_cons_self
      | _ => cases h

/-- A header is what all parts say. -/
theorem header_eq_ok {form : Form} {file : String} {pos : Position} {n : Node} (h : form.header file pos = .ok n) :
    form.location file pos = .ok n.location ∧ form.inherited = .ok n.inherited ∧ form.refuseUnknown = .ok () ∧
      form.kind pos = .ok n.kind ∧ n.children = [] := by
  obtain ⟨location, hlocation, h⟩ := Except.bind_eq_ok h
  obtain ⟨inherited, hinherited, h⟩ := Except.bind_eq_ok h
  obtain ⟨_, hknown, h⟩ := Except.bind_eq_ok h
  obtain ⟨kind, hkind, h⟩ := Except.bind_eq_ok h
  cases h
  exact ⟨hlocation, hinherited, hknown, hkind, rfl⟩

theorem asNumber_lt {e : SExp} {n : Nat} (h : e.asNumber = .ok n) : n < wordBound := by
  have hdigits : ∀ {digits : List Char}, digitsValue? digits = some n → n < wordBound := by
    intro digits hvalue
    unfold digitsValue? at hvalue
    split at hvalue
    · dsimp only at hvalue
      split at hvalue
      · next hlt => cases hvalue; exact hlt
      · cases hvalue
    · cases hvalue
  cases e with
  | list elements pos => cases h
  | atom a pos =>
    cases a with
    | number text =>
      rw [SExp.asNumber] at h
      split at h
      · next value hvalue =>
        cases h
        unfold unsigned? at hvalue
        split at hvalue <;> exact hdigits hvalue
      · cases h
    | _ => cases h

/-- A location is what both fields say, in so far as they are there. -/
theorem location_eq (form : Form) (file : String) (pos : Position) :
    form.location file pos = (do
      let filename ← (form.field? "file").elim (.ok file) SExp.asString
      let line ← (form.field? "line").elim (.ok pos.line) SExp.asNumber
      return ⟨filename, line⟩) := by
  unfold location
  cases form.field? "file" <;> cases form.field? "line" <;> rfl

theorem inherited_eq (form : Form) : form.inherited = (form.field? "inherited").elim (.ok false) SExp.asBool := by
  unfold inherited
  cases form.field? "inherited" <;> rfl

theorem location_eq_ok {form : Form} {file : String} {pos : Position} {location : Location}
    (h : form.location file pos = .ok location) :
    (form.field? "file").elim (.ok file) SExp.asString = .ok location.filename ∧
      (form.field? "line").elim (.ok pos.line) SExp.asNumber = .ok location.line := by
  rw [location_eq] at h
  obtain ⟨filename, hfilename, h⟩ := Except.bind_eq_ok h
  obtain ⟨line, hline, h⟩ := Except.bind_eq_ok h
  cases h
  exact ⟨hfilename, hline⟩

/-- A node is on a line that fits a machine word or on that of its list. -/
theorem line_of_location {form : Form} {file : String} {pos : Position} {location : Location}
    (h : form.location file pos = .ok location) : location.line < wordBound ∨ location.line = pos.line := by
  have hline := (location_eq_ok h).2
  cases hfield : form.field? "line" with
  | none =>
    rw [hfield] at hline
    exact .inr (Except.ok.inj hline).symm
  | some value =>
    rw [hfield] at hline
    exact .inl (asNumber_lt hline)

end Form

end StyleTree
