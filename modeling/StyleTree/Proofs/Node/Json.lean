import Mathlib.Data.List.Perm.Basic
import Mathlib.Data.Option.Basic
import StyleTree.Node.Json
import StyleTree.Proofs.Json.RoundTrip
import StyleTree.Proofs.Node.Walk
import StyleTree.Settings.Basic

/-!
# `Proofs.Node.Json` — a tree reads back from JSON

A tree can be written as JSON in many ways: the members of an object in any order, members that no reader asks for
beside them, and what has a usual value left out. A reader asks for each member by its key, so none of this makes a
difference.

The members of a node are divided between the node and its kind, and the division is made by the keys as well. So it
comes out the same in any order.

## Contents
- **Members.** `Json.member?_perm`, the order does not matter; `Json.member?_append_left` and
  `Json.member?_append_right`, nor do other keys.
- **Ways to write.** `Location.WrittenAs`, `Kind.WrittenAs`, `FlagWrittenAs` and `ChildrenWrittenAs`, the parts of a
  node; `MembersWrittenAs`, all of them among others; `WrittenAs`, the values that a tree may be written as.
- **What a node is.** `Kind.ofMembers?_of_writtenAs`: it is found among other members.
- **Dividing the members.** `filter_perm_of_divided`, what is left to the kind, and `member?_of_divided`, what all nodes
  have in common.
- **Parts.** `MembersWrittenAs.ofMembers?_eq`, all about a node but its children, and
  `MembersWrittenAs.childLists?_eq`, its children.
- **The tree.** `ofJson?_of_writtenAs`, by induction on the tree.
- **The usual way.** `writtenAs_toJson` and `spellable_toJson`.
- **The text.** `ofJsonText?_of_writtenAs`.
-/

namespace StyleTree

namespace Json

/-! ## Members -/

variable {members members' more : List (String × Json)} {key : String}

/-- The order of members does not matter. -/
theorem member?_perm (h : members.Perm members') (key : String) : member? members key = member? members' key := by
  have hfound := h.filter fun m => m.1 == key
  unfold member?
  generalize members.filter (fun m => m.1 == key) = found at hfound
  generalize members'.filter (fun m => m.1 == key) = found' at hfound
  match found, found', hfound with
  | [], found', hfound => rw [hfound.nil_eq]
  | [m], found', hfound => rw [List.singleton_perm.1 hfound]
  | _ :: _ :: _, [], hfound => exact absurd hfound.length_eq (by simp)
  | _ :: _ :: _, [_], hfound => exact absurd hfound.length_eq (by simp)
  | _ :: _ :: _, _ :: _ :: _, _ => rfl

theorem filter_eq_nil_of_ne (h : ∀ m ∈ members, m.1 ≠ key) : members.filter (fun m => m.1 == key) = [] := by
  rw [List.filter_eq_nil_iff]
  intro m hm
  simpa using h m hm

theorem ne_of_forall_eq {other : String} (h : ∀ m ∈ members, m.1 = other) (hne : other ≠ key) :
    ∀ m ∈ members, m.1 ≠ key :=
  fun m hm heq => hne ((h m hm).symm.trans heq)

/-- Members with other keys do not matter, in front of the others or behind them. -/
theorem member?_append_left (h : ∀ m ∈ members, m.1 ≠ key) : member? (members ++ more) key = member? more key := by
  rw [member?, List.filter_append, filter_eq_nil_of_ne h, List.nil_append, member?]

theorem member?_append_right (h : ∀ m ∈ more, m.1 ≠ key) : member? (members ++ more) key = member? members key := by
  rw [member?, List.filter_append, filter_eq_nil_of_ne h, List.append_nil, member?]

theorem membersSound_iff : membersSound members = true ↔ ∀ m ∈ members, m.2.isSound = true := by
  induction members with
  | nil => simp [membersSound]
  | cons m members ih => rw [membersSound, Bool.and_eq_true, ih, List.forall_mem_cons]

end Json

/-! ## Ways to write -/

/-- The values that a location may be written as: an object with the file name and the line, in either order, and other
    members beside them. -/
def Location.WrittenAs (location : Location) (value : Json) : Prop :=
  ∃ members extras, value = .object members ∧
    members.Perm ([("filename", .string location.filename), ("line", .natural location.line)] ++ extras) ∧
      ∀ m ∈ extras, m.1 ∉ ["filename", "line"]

/-- A location is read from whatever it may be written as, provided that its line fits a machine word. -/
theorem Location.ofJson?_of_writtenAs {location : Location} {value : Json} (h : location.WrittenAs value)
    (hline : location.line < wordBound) : Location.ofJson? value = some location := by
  obtain ⟨members, extras, rfl, hperm, hextras⟩ := h
  have hmember : ∀ key ∈ ["filename", "line"], Json.member? members key
      = Json.member? [("filename", .string location.filename), ("line", .natural location.line)] key := by
    intro key hkey
    rw [Json.member?_perm hperm, Json.member?_append_right]
    rintro m hm rfl
    exact hextras m hm hkey
  rw [Location.ofJson?, hmember "filename" (by decide), hmember "line" (by decide)]
  show Location.ofValues? (.string location.filename) (.natural location.line) = some location
  rw [Location.ofValues?, if_pos hline]

namespace Node

/-- The members that what a node is may be written as. What is `null` may be left out. -/
inductive Kind.WrittenAs : Kind → List (String × Json) → Prop
  /-- All of them. -/
  | all (kind : Kind) : WrittenAs kind kind.members
  /-- A rule without a selector. -/
  | unresolved : WrittenAs (.rule none) [("type", .string "rule")]
  /-- A node without text. -/
  | textless (tag : String) : WrittenAs (.other tag none) [("type", .string "other"), ("tag", .string tag)]

/-- The members that a flag may be written as. If it is not set, it may be left out. -/
inductive FlagWrittenAs : Bool → List (String × Json) → Prop
  /-- As it is. -/
  | given (flag : Bool) : FlagWrittenAs flag [("inherited", .bool flag)]
  /-- Not at all. -/
  | leftOut : FlagWrittenAs false []

/-- The members that the children of a node may be written as, given what each of them is written as. If there are
    none, they may be left out. -/
inductive ChildrenWrittenAs : List Json → List (String × Json) → Prop
  /-- As an array. -/
  | given (values : List Json) : ChildrenWrittenAs values [("children", .array values)]
  /-- Not at all. -/
  | leftOut : ChildrenWrittenAs [] []

/-- The keys of the members that tell what a node is. -/
def kindKeys : List String := ["type", "resolved_selector", "target", "tag", "text"]

/-- The members that a node may be written as, given what its children are written as: those of its kind and those that
    all nodes have in common, in any order, and beside them others, whose values stand for something. -/
inductive MembersWrittenAs (n : Node) (values : List Json) (members : List (String × Json)) : Prop
  /-- All of them, divided. -/
  | divided {own list flag extras : List (String × Json)} {place : Json} :
      n.kind.WrittenAs own → ChildrenWrittenAs values list → FlagWrittenAs n.inherited flag →
      n.location.WrittenAs place → (∀ m ∈ extras, m.1 ∉ kindKeys ++ commonKeys ∧ m.2.isSound = true) →
      members.Perm (own ++ ((list ++ (flag ++ [("location", place)])) ++ extras)) → MembersWrittenAs n values members

/-- The values that a tree may be written as. -/
inductive WrittenAs : Node → Json → Prop
  /-- An object. -/
  | object {n : Node} {values : List Json} {members : List (String × Json)} :
      List.Forall₂ WrittenAs n.children values → MembersWrittenAs n values members → WrittenAs n (.object members)

/-! ## What a node is -/

theorem Kind.WrittenAs.mem_kindKeys {kind : Kind} {own : List (String × Json)} (h : kind.WrittenAs own) :
    ∀ m ∈ own, m.1 ∈ kindKeys := by
  cases h with
  | all => cases kind <;> simp [Kind.members, kindKeys]
  | unresolved => simp [kindKeys]
  | textless tag => simp [kindKeys]

theorem Kind.WrittenAs.isSound {kind : Kind} {own : List (String × Json)} (h : kind.WrittenAs own) :
    ∀ m ∈ own, m.2.isSound = true := by
  have hoptional : ∀ text? : Option String, (optionalString text?).isSound = true := by
    intro text?
    cases text? <;> rfl
  cases h with
  | all => cases kind <;> simp [Kind.members, Json.isSound, hoptional]
  | unresolved => simp [Json.isSound]
  | textless tag => simp [Json.isSound]

/-- What a node is is found among other members. -/
theorem Kind.ofMembers?_of_writtenAs {kind : Kind} {members own extras : List (String × Json)} (h : kind.WrittenAs own)
    (hperm : members.Perm (own ++ extras)) (hextras : ∀ m ∈ extras, m.1 ∉ kindKeys) :
    Kind.ofMembers? members = some kind := by
  have hmember : ∀ key ∈ kindKeys, Json.member? members key = Json.member? own key := by
    intro key hkey
    rw [Json.member?_perm hperm, Json.member?_append_right]
    rintro m hm rfl
    exact hextras m hm hkey
  rw [Kind.ofMembers?, hmember "type" (by decide), hmember "resolved_selector" (by decide),
    hmember "target" (by decide), hmember "tag" (by decide), hmember "text" (by decide)]
  cases h with
  | all => rcases kind with (_ | _) | _ | ⟨_, (_ | _)⟩ <;> rfl
  | unresolved => rfl
  | textless tag => rfl

/-! ## Dividing the members -/

theorem ChildrenWrittenAs.key_eq {values : List Json} {list : List (String × Json)}
    (h : ChildrenWrittenAs values list) : ∀ m ∈ list, m.1 = "children" := by
  cases h <;> simp

theorem FlagWrittenAs.key_eq {inherited : Bool} {flag : List (String × Json)} (h : FlagWrittenAs inherited flag) :
    ∀ m ∈ flag, m.1 = "inherited" := by
  cases h <;> simp

theorem FlagWrittenAs.inherited?_eq {inherited : Bool} {flag : List (String × Json)}
    (h : FlagWrittenAs inherited flag) : (Json.member? flag "inherited").bind inherited? = some inherited := by
  cases h <;> rfl

section Divided

variable {members own common extras : List (String × Json)}
  (hperm : members.Perm (own ++ (common ++ extras))) (hown : ∀ m ∈ own, m.1 ∈ kindKeys)
  (hextras : ∀ m ∈ extras, m.1 ∉ kindKeys ++ commonKeys)
include hperm hown hextras

/-- Without the members that all nodes have in common, those of the kind and the others are left. -/
theorem filter_perm_of_divided (hcommon : ∀ m ∈ common, m.1 ∈ commonKeys) :
    (members.filter fun m => !commonKeys.contains m.1).Perm (own ++ extras) := by
  have hdisjoint : ∀ key ∈ kindKeys, key ∉ commonKeys := by decide
  have hkept : own.filter (fun m => !commonKeys.contains m.1) = own :=
    List.filter_eq_self.2 fun m hm => by simpa using hdisjoint _ (hown m hm)
  have hleft : common.filter (fun m => !commonKeys.contains m.1) = [] :=
    List.filter_eq_nil_iff.2 fun m hm => by simpa using hcommon m hm
  have hothers : extras.filter (fun m => !commonKeys.contains m.1) = extras :=
    List.filter_eq_self.2 fun m hm => by
      have hm := hextras m hm
      rw [List.mem_append, not_or] at hm
      simpa using hm.2
  refine (hperm.filter _).trans (List.Perm.of_eq ?_)
  rw [List.filter_append, List.filter_append, hkept, hleft, hothers, List.nil_append]

/-- What all nodes have in common is found among the members for it. -/
theorem member?_of_divided {key : String} (hkey : key ∈ commonKeys) :
    Json.member? members key = Json.member? common key := by
  have hdisjoint : ∀ key ∈ commonKeys, key ∉ kindKeys := by decide
  rw [Json.member?_perm hperm, Json.member?_append_left, Json.member?_append_right]
  · rintro m hm rfl
    exact hextras m hm (List.mem_append_right _ hkey)
  · rintro m hm rfl
    exact hdisjoint _ hkey (hown m hm)

end Divided

/-! ## Parts -/

theorem ChildrenWrittenAs.childLists?_eq {values : List Json} {list : List (String × Json)} {ns : List Node}
    (h : ChildrenWrittenAs values list) (hvalues : ofJsons? values = some ns) :
    childLists? list = some [ns] ∨ ns = [] ∧ childLists? list = some [] := by
  cases h with
  | given => exact .inl (by simp [childLists?, ofArray?, hvalues])
  | leftOut => exact .inr ⟨(Option.some.inj hvalues).symm, rfl⟩

/-- Only members for children are read as such. -/
theorem childLists?_filter (members : List (String × Json)) :
    childLists? (members.filter fun m => m.1 == "children") = childLists? members := by
  induction members with
  | nil => rfl
  | cons m members ih =>
    obtain ⟨key, value⟩ := m
    by_cases hkey : (key == "children") = true
    · rw [List.filter_cons_of_pos (by exact hkey), childLists?, childLists?, ih]
    · rw [List.filter_cons_of_neg (by exact hkey), ih, childLists?, if_neg hkey]

/-- Everything about a node but its children is read from its members. -/
theorem MembersWrittenAs.ofMembers?_eq {n : Node} {values : List Json} {members : List (String × Json)}
    (h : MembersWrittenAs n values members) (hline : n.location.line < wordBound) :
    ofMembers? members = some { n with children := [] } := by
  obtain @⟨own, list, flag, extras, place, hkind, hlist, hflag, hplace, hextras, hperm⟩ := h
  have hcommon : ∀ m ∈ list ++ (flag ++ [("location", place)]), m.1 ∈ commonKeys := by
    simp only [List.forall_mem_append, List.forall_mem_singleton]
    exact ⟨fun m hm => by simp [hlist.key_eq m hm, commonKeys], fun m hm => by simp [hflag.key_eq m hm, commonKeys],
      by decide⟩
  have hothers : ∀ m ∈ extras, m.1 ∉ kindKeys ++ commonKeys := fun m hm => (hextras m hm).1
  have hown := filter_perm_of_divided hperm hkind.mem_kindKeys hothers hcommon
  have hsound : Json.membersSound (members.filter fun m => !commonKeys.contains m.1) = true := by
    refine Json.membersSound_iff.2 fun m hm => ?_
    rcases List.mem_append.1 (hown.mem_iff.1 hm) with hm | hm
    · exact hkind.isSound m hm
    · exact (hextras m hm).2
  have hinherited : Json.member? members "inherited" = Json.member? flag "inherited" := by
    rw [member?_of_divided hperm hkind.mem_kindKeys hothers (by decide),
      Json.member?_append_left (Json.ne_of_forall_eq hlist.key_eq (by decide)), Json.member?_append_right (by simp)]
  have hlocation : Json.member? members "location" = some (some place) := by
    rw [member?_of_divided hperm hkind.mem_kindKeys hothers (by decide),
      Json.member?_append_left (Json.ne_of_forall_eq hlist.key_eq (by decide)),
      Json.member?_append_left (Json.ne_of_forall_eq hflag.key_eq (by decide))]
    rfl
  have hkindRead := Kind.ofMembers?_of_writtenAs hkind hown fun m hm hmem =>
    hothers m hm (List.mem_append_left _ hmem)
  obtain ⟨flag?, hflag?, hset⟩ := Option.bind_eq_some_iff.1 hflag.inherited?_eq
  simp only [ofMembers?, hsound, guard_true, hkindRead, hinherited, hflag?, hset, hlocation,
    Location.ofJson?_of_writtenAs hplace hline, Option.pure_def, Option.bind_eq_bind, Option.bind_some]

/-- The children of a node are read from its members. -/
theorem MembersWrittenAs.childLists?_eq {n : Node} {values : List Json} {members : List (String × Json)}
    {ns : List Node} (h : MembersWrittenAs n values members) (hvalues : ofJsons? values = some ns) :
    childLists? members = some [ns] ∨ ns = [] ∧ childLists? members = some [] := by
  obtain @⟨own, list, flag, extras, place, hkind, hlist, hflag, -, hextras, hperm⟩ := h
  have hown : ∀ m ∈ own, m.1 ≠ "children" := fun m hm hkey =>
    absurd (hkey ▸ hkind.mem_kindKeys m hm) (by decide)
  have hplace : ∀ m ∈ [("location", place)], m.1 ≠ "children" := by simp
  have hothers : ∀ m ∈ extras, m.1 ≠ "children" := fun m hm hkey => (hextras m hm).1 (by rw [hkey]; decide)
  have hkept : list.filter (fun m => m.1 == "children") = list :=
    List.filter_eq_self.2 fun m hm => by simpa using hlist.key_eq m hm
  have hfilter : (members.filter fun m => m.1 == "children").Perm list := by
    refine (hperm.filter _).trans (List.Perm.of_eq ?_)
    rw [List.filter_append, List.filter_append, List.filter_append, List.filter_append, hkept,
      Json.filter_eq_nil_of_ne hown, Json.filter_eq_nil_of_ne (Json.ne_of_forall_eq hflag.key_eq (by decide)),
      Json.filter_eq_nil_of_ne hplace, Json.filter_eq_nil_of_ne hothers]
    simp
  have heq : (members.filter fun m => m.1 == "children") = list := by
    cases hlist with
    | given => exact List.perm_singleton.1 hfilter
    | leftOut => exact hfilter.eq_nil
  rw [← childLists?_filter, heq]
  exact hlist.childLists?_eq hvalues

/-! ## The tree -/

/-- Values in a row are read one by one. -/
theorem ofJsons?_of_writtenAs {ns : List Node} {values : List Json} (h : List.Forall₂ WrittenAs ns values)
    (hread : ∀ n ∈ ns, ∀ {value : Json}, n.WrittenAs value → ofJson? value = some n) : ofJsons? values = some ns := by
  induction h with
  | nil => rfl
  | cons hn _ ih =>
    rw [ofJsons?, hread _ List.mem_cons_self hn, ih fun m hm => hread m (List.mem_cons_of_mem _ hm)]

/-- **A tree is read back** from any value that it may be written as. -/
theorem ofJson?_of_writtenAs {n : Node} (hlines : ∀ m ∈ n.preorder, m.location.line < wordBound) {value : Json}
    (h : n.WrittenAs value) : ofJson? value = some n := by
  induction n using childInduction generalizing value with
  | step n ih =>
    obtain ⟨hchildren, hmembers⟩ := h
    have hvalues := ofJsons?_of_writtenAs hchildren fun child hchild _ =>
      ih child hchild fun m hm => hlines m (mem_preorder_of_child hchild hm)
    rw [ofJson?, hmembers.ofMembers?_eq (hlines n (mem_preorder_self n))]
    rcases hmembers.childLists?_eq hvalues with hlists | ⟨hnone, hlists⟩
    · rw [hlists]
      cases n
      rfl
    · rw [hlists, ← hnone]
      cases n
      rfl

/-! ## The usual way -/

theorem toJsons_eq_map (ns : List Node) : toJsons ns = ns.map toJson := by
  induction ns with
  | nil => rfl
  | cons n ns ih => rw [toJsons, ih, List.map_cons]

/-- The members that a writer gives a node. -/
theorem membersWrittenAs_toJson (kind : Kind) (children : List Node) (inherited : Bool) (location : Location) :
    MembersWrittenAs ⟨kind, children, inherited, location⟩ (toJsons children)
      (kind.members ++ (if children.isEmpty then [] else [("children", .array (toJsons children))])
        ++ (if inherited then [("inherited", .bool true)] else []) ++ [("location", location.toJson)]) := by
  have hlist : ChildrenWrittenAs (toJsons children)
      (if children.isEmpty then [] else [("children", .array (toJsons children))]) := by
    cases children with
    | nil => exact .leftOut
    | cons child children => exact .given _
  have hflag : FlagWrittenAs inherited (if inherited then [("inherited", .bool true)] else []) := by
    cases inherited with
    | true => exact .given true
    | false => exact .leftOut
  have hplace : location.WrittenAs location.toJson := ⟨_, [], rfl, by simp, by simp⟩
  exact .divided (.all kind) hlist hflag hplace (List.forall_mem_nil _) (by simp)

/-- A writer writes a tree as one of the values that it may be written as. -/
theorem writtenAs_toJson (n : Node) : n.WrittenAs n.toJson := by
  induction n using childInduction with
  | step n ih =>
    obtain ⟨kind, children, inherited, location⟩ := n
    rw [toJson]
    refine .object ?_ (membersWrittenAs_toJson kind children inherited location)
    rw [toJsons_eq_map, List.forall₂_map_right_iff, List.forall₂_same]
    exact ih

/-- What a writer writes a tree as can be written as text, if its lines fit a machine word. -/
theorem spellable_toJson {n : Node} (hlines : ∀ m ∈ n.preorder, m.location.line < wordBound) : n.toJson.Spellable := by
  induction n using childInduction with
  | step n ih =>
    have hchildren : Json.ElementsSpellable (toJsons n.children) := by
      rw [toJsons_eq_map, Json.elementsSpellable_iff]
      simp only [List.forall_mem_map]
      exact fun child hchild => ih child hchild fun m hm => hlines m (mem_preorder_of_child hchild hm)
    have hline : n.location.toJson.Spellable := ⟨trivial, hlines n (mem_preorder_self n), trivial⟩
    have hkind : Json.MembersSpellable n.kind.members := by
      rcases n.kind with (_ | _) | _ | ⟨_, (_ | _)⟩ <;>
        simp [Kind.members, optionalString, Json.MembersSpellable, Json.Spellable]
    obtain ⟨kind, children, inherited, location⟩ := n
    rw [toJson, Json.Spellable]
    simp only [Json.membersSpellable_iff, List.forall_mem_append] at hkind ⊢
    refine ⟨⟨⟨hkind, ?_⟩, ?_⟩, ?_⟩
    · split <;> simp [Json.Spellable, hchildren]
    · split <;> simp [Json.Spellable]
    · simpa using hline

/-! ## The text -/

/-- **A tree reads back from JSON.** The text that is written for it is read as that tree, and so is any other text of a
    value that it may be written as, as long as a reader goes as deep as the value. -/
theorem ofJsonText?_of_writtenAs (n : Node) (hlines : ∀ m ∈ n.preorder, m.location.line < wordBound) :
    (readDepth n.toJson ≤ greatestDepth → ∀ settings : Settings, ofJsonText? (settings.render .json n) = some n) ∧
      ∀ value, n.WrittenAs value → readDepth value ≤ greatestDepth →
        (∀ text, Json.parse? text = some value → ofJsonText? text = some n) ∧
          (value.Spellable → ofJsonText? value.pretty = some n) := by
  have htext : ∀ {value text}, n.WrittenAs value → readDepth value ≤ greatestDepth →
      Json.parse? text = some value → ofJsonText? text = some n := by
    intro value text hvalue hdepth hparse
    simp only [ofJsonText?, hparse, hdepth, guard_true, ofJson?_of_writtenAs hlines hvalue, Option.bind_eq_bind,
      Option.bind_some, Option.pure_def]
  refine ⟨fun hdepth settings => ?_, fun value hvalue hdepth => ⟨fun text hparse => ?_, fun hspellable => ?_⟩⟩
  · exact htext (writtenAs_toJson n) hdepth (Json.parse?_pretty (spellable_toJson hlines))
  · exact htext hvalue hdepth hparse
  · exact htext hvalue hdepth (Json.parse?_pretty hspellable)

/-- An inherited node with escapes in its text, on the last line there can be. -/
def escapedText : Node :=
  { kind := .other "decl" (some "tab\t, bell \x07, back\\slash, é")
    inherited := true
    location := ⟨"c.css", 18446744073709551615⟩ }

/-- A rule without a selector around it. -/
def escapedPage : Node :=
  { kind := .rule none, location := ⟨"a \"b\".css", 1⟩, children := [escapedText] }

/-- The node with its members in reverse, and its children though there are none. -/
def reversedText : Json :=
  .object
    [("location", .object [("line", .natural 18446744073709551615), ("filename", .string "c.css")]),
      ("inherited", .bool true),
      ("children", .array []),
      ("text", .string "tab\t, bell \x07, back\\slash, é"),
      ("tag", .string "decl"),
      ("type", .string "other")]

/-- The rule with its members in reverse and more beside them, with the flag though it is not set, and without a
    selector. -/
def reversedPage : Json :=
  .object
    [("note", .object [("type", .natural 3)]),
      ("location", .object [("unit", .null), ("line", .natural 1), ("filename", .string "a \"b\".css")]),
      ("inherited", .bool false),
      ("children", .array [reversedText]),
      ("type", .string "rule")]

theorem writtenAs_reversedPage : escapedPage.WrittenAs reversedPage := by
  have hreversed : ∀ {members members' : List (String × Json)}, members = members'.reverse → members.Perm members' :=
    fun heq => heq ▸ List.reverse_perm _
  have htext : escapedText.WrittenAs reversedText := by
    have hplace : escapedText.location.WrittenAs
        (.object [("line", .natural 18446744073709551615), ("filename", .string "c.css")]) :=
      ⟨_, [], rfl, hreversed rfl, by decide⟩
    exact .object .nil (.divided (.all _) (.given _) (.given _) hplace (List.forall_mem_nil _) (hreversed rfl))
  have hplace : escapedPage.location.WrittenAs
      (.object [("unit", .null), ("line", .natural 1), ("filename", .string "a \"b\".css")]) :=
    ⟨_, [("unit", .null)], rfl, hreversed rfl, by decide⟩
  have hnote : ∀ m ∈ [("note", Json.object [("type", .natural 3)])],
      m.1 ∉ kindKeys ++ commonKeys ∧ m.2.isSound = true := by decide
  exact .object (.cons htext .nil) (.divided .unresolved (.given _) (.given _) hplace hnote (hreversed rfl))

theorem ofJsonText?_of_writtenAs_reversedPage :
    (∀ settings : Settings, ofJsonText? (settings.render .json escapedPage) = some escapedPage) ∧
      ofJsonText? reversedPage.pretty = some escapedPage := by
  obtain ⟨husual, hwritten⟩ := ofJsonText?_of_writtenAs escapedPage (by decide)
  have hspellable : reversedPage.Spellable := by
    simp [reversedPage, reversedText, Json.Spellable, Json.MembersSpellable, Json.ElementsSpellable, wordBound]
  exact ⟨husual (by decide), (hwritten reversedPage writtenAs_reversedPage (by decide)).2 hspellable⟩

end Node

end StyleTree
