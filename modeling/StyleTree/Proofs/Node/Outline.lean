import StyleTree.Proofs.Node.Blocks

/-!
# `Proofs.Node.Outline` — a printed tree line by line

A tree is printed one node to a line. Since the atoms of a node stand before its children, and strings have no line
feeds left in them (`not_mem_headline`), the text breaks before the children and nowhere else. A line is indented by the
number of nodes around its node. What stands at its end are the parentheses of the nodes that end there: in the order of
a visit the nodes of a subtree follow one another, so a subtree ends with the node that comes last of as many nodes as
it has (`Node.endingAt`).

The text of a node is its own line and then the text of its children (`text_eq`). By induction on the tree this makes
the lines of a text the lines of the visits of its tree, `outlined`, and `lines_print` is what that means for a printed
one.
-/

namespace StyleTree.Node

/-! ## Visits -/

mutual

/-- The node and then its descendants, depth first and in child order, each with the nodes around it from its parent
    out. The given nodes are around the first. -/
def visits (around : List Node) : Node → List (Node × List Node)
  | ⟨kind, children, inherited, location⟩ =>
    (⟨kind, children, inherited, location⟩, around)
      :: visitsAll (⟨kind, children, inherited, location⟩ :: around) children

/-- The visits of several trees, one tree after the other. -/
def visitsAll (around : List Node) : List Node → List (Node × List Node)
  | [] => []
  | n :: ns => n.visits around ++ visitsAll around ns

end

/-- A node is visited first, and around its children there is the node as well. -/
theorem visits_eq (around : List Node) (n : Node) :
    n.visits around = (n, around) :: visitsAll (n :: around) n.children := by
  cases n
  rfl

theorem map_fst_visitsAll {ns : List Node} (h : ∀ n ∈ ns, ∀ around, (n.visits around).map Prod.fst = n.preorder)
    (around : List Node) : (visitsAll around ns).map Prod.fst = preorderAll ns := by
  induction ns with
  | nil => rfl
  | cons n ns ih =>
    obtain ⟨hfirst, hothers⟩ := List.forall_mem_cons.1 h
    rw [visitsAll, preorderAll, List.map_append, hfirst, ih hothers]

/-- The nodes are visited in their order. -/
theorem map_fst_visits (n : Node) : ∀ around, (n.visits around).map Prod.fst = n.preorder := by
  induction n using childInduction with
  | step n ih =>
    intro around
    rw [visits_eq, preorder_eq, List.map_cons, map_fst_visitsAll ih]

theorem countNodes_eq_length (n : Node) : n.countNodes = n.preorder.length := by
  simp [countNodes, count]

theorem countNodes_eq (n : Node) : n.countNodes = (preorderAll n.children).length + 1 := by
  rw [countNodes_eq_length, preorder_eq, List.length_cons]

/-! ## Ends -/

/-- Of nodes in the order of a visit, the number of those whose subtree ends with the node of the given number: the
    subtree of a node is that node and those behind it, as many as it has nodes. -/
def endingAt (visited : List Node) (k : Nat) : Nat :=
  visited.zipIdx.countP fun (n, j) => j + n.countNodes = k + 1

section Ends

variable (n : Node) (front visited : List Node) (k : Nat)

/-- A node in front ends where its own size says, and puts the others one place further on. -/
theorem endingAt_cons : endingAt (n :: visited) k =
    (if n.countNodes = k + 1 then 1 else 0) + visited.zipIdx.countP fun (m, j) => j + 1 + m.countNodes = k + 1 := by
  rw [endingAt, List.zipIdx_cons', List.countP_cons, List.countP_map, Nat.add_comm]
  congr 1
  simp

/-- A subtree has a node and so ends no earlier than it begins. -/
theorem endingAt_cons_zero : endingAt (n :: visited) 0 = if n.countNodes = 1 then 1 else 0 := by
  have hnone : visited.zipIdx.countP (fun (m, j) => j + 1 + m.countNodes = 0 + 1) = 0 := by
    rw [List.countP_eq_zero]
    rintro ⟨m, j⟩ _
    have hnode := countNodes_eq m
    simp only [decide_eq_true_eq]
    omega
  rw [endingAt_cons, hnone, Nat.add_zero]

theorem endingAt_cons_succ :
    endingAt (n :: visited) (k + 1) = (if n.countNodes = k + 2 then 1 else 0) + endingAt visited k := by
  rw [endingAt_cons, endingAt]
  congr 2
  funext ⟨m, j⟩
  rw [decide_eq_decide]
  omega

/-- Nothing behind a node ends with it. -/
theorem endingAt_append_left {k : Nat} (hk : k < front.length) : endingAt (front ++ visited) k = endingAt front k := by
  induction front generalizing k with
  | nil => cases hk
  | cons n front ih =>
    cases k with
    | zero => rw [List.cons_append, endingAt_cons_zero, endingAt_cons_zero]
    | succ k => rw [List.cons_append, endingAt_cons_succ, endingAt_cons_succ, ih (Nat.lt_of_succ_lt_succ hk)]

/-- Behind the first nodes there end those of their subtrees that reach so far, and the ones that begin there. -/
theorem endingAt_append_right :
    endingAt (front ++ visited) (front.length + k) = endingAt front (front.length + k) + endingAt visited k := by
  induction front with
  | nil => simp [endingAt]
  | cons n front ih =>
    rw [List.cons_append, List.length_cons, Nat.add_right_comm, endingAt_cons_succ, endingAt_cons_succ, ih]
    exact (Nat.add_assoc _ _ _).symm

end Ends

theorem endingAt_preorderAll_behind {ns : List Node} (h : ∀ n ∈ ns, ∀ k, endingAt n.preorder (n.countNodes + k) = 0) :
    ∀ k, endingAt (preorderAll ns) ((preorderAll ns).length + k) = 0 := by
  induction ns with
  | nil =>
    intro k
    rfl
  | cons n ns ih =>
    intro k
    obtain ⟨hfirst, hothers⟩ := List.forall_mem_cons.1 h
    have hbefore := hfirst ((preorderAll ns).length + k)
    rw [countNodes_eq_length] at hbefore
    rw [preorderAll, List.length_append, Nat.add_assoc, endingAt_append_right, hbefore, ih hothers]

/-- No subtree ends behind the tree. -/
theorem endingAt_behind (n : Node) : ∀ k, endingAt n.preorder (n.countNodes + k) = 0 := by
  induction n using childInduction with
  | step n ih =>
    intro k
    rw [preorder_eq, countNodes_eq, Nat.add_right_comm, endingAt_cons_succ, endingAt_preorderAll_behind ih,
      if_neg (by rw [countNodes_eq]; omega)]

/-! ## One line -/

/-- The argument of a node, as it stands behind its name. -/
def Kind.argumentText : Kind → List Char
  | .rule none => " nil".toList
  | .rule (some text) | .inherit text | .other _ (some text) => ' ' :: quotedLiteral text
  | .other _ none => []

/-- The file that a reader assumes for a node with the given nodes around it, if it is not the root. -/
def assumedFile? (around : List Node) : Option String :=
  around.head?.map fun parent => parent.kind.childFile parent.location.filename

/-- The fields that tell where a node was declared, for a reader who assumes the given file. -/
def locationText (assumed : Option String) (location : Location) : List Char :=
  (if assumed = some location.filename then [] else " :file ".toList ++ quotedLiteral location.filename)
    ++ (" :line ".toList ++ decimal location.line)

/-- The field of a node that came out of an inherited block. -/
def inheritedText (inherited : Bool) : List Char :=
  if inherited then " :inherited true".toList else []

/-- What is printed for a node alone: its name, its argument and its fields behind an opening parenthesis. -/
def headline (showLocations : Bool) (around : List Node) (n : Node) : List Char :=
  '(' :: (n.kind.name.toList ++ (n.kind.argumentText
    ++ ((if showLocations then locationText (assumedFile? around) n.location else []) ++ inheritedText n.inherited)))

/-- A line feed in a text is escaped when the text is quoted. -/
theorem not_mem_quotedLiteral (text : String) : '\n' ∉ quotedLiteral text :=
  Atom.oneLine_of_readable (a := .string text) trivial

theorem not_mem_decimal (n : Nat) : '\n' ∉ decimal n := by
  intro hmem
  have hdigit : '\n'.isDigit = true := Nat.isDigit_of_mem_toDigits (by decide) (by decide) hmem
  revert hdigit
  decide

/-- **A node stands on one line** if its name has no line feed. -/
theorem not_mem_headline {n : Node} (hname : '\n' ∉ n.kind.name.toList) (showLocations : Bool) (around : List Node) :
    '\n' ∉ n.headline showLocations around := by
  have hargument : '\n' ∉ n.kind.argumentText := by
    rcases n.kind with (_ | selector) | target | ⟨tag, (_ | text)⟩
    · decide
    · simpa [Kind.argumentText] using not_mem_quotedLiteral selector
    · simpa [Kind.argumentText] using not_mem_quotedLiteral target
    · simp [Kind.argumentText]
    · simpa [Kind.argumentText] using not_mem_quotedLiteral text
  have hlocation : '\n' ∉ locationText (assumedFile? around) n.location := by
    have hfile : '\n' ∉ " :file ".toList := by decide
    have hline : '\n' ∉ " :line ".toList := by decide
    unfold locationText
    split <;> simp only [List.mem_append, List.not_mem_nil, hfile, hline, not_mem_quotedLiteral, not_mem_decimal, or_self,
      not_false_eq_true]
  have hinherited : '\n' ∉ inheritedText n.inherited := by
    cases n.inherited <;> decide
  have hshown : '\n' ∉ if showLocations then locationText (assumedFile? around) n.location else [] := by
    cases showLocations
    · exact List.not_mem_nil
    · exact hlocation
  simp [headline, hname, hargument, hshown, hinherited]

/-! ## The text -/

section Layout

variable (indent depth : Nat)

/-- Atoms as they stand on a line, a blank in front of each. -/
def spelled (atoms : List SExp) : List Char :=
  atoms.flatMap fun e => ' ' :: SExp.write 0 0 e []

/-- Atoms stay on the line. -/
theorem writeRest_atoms {atoms : List SExp} (h : ∀ e ∈ atoms, e.isList = false) (rest : List SExp)
    (behind : List Char) : SExp.writeRest indent depth .sameLine (atoms ++ rest) behind
      = spelled atoms ++ SExp.writeRest indent depth .sameLine rest behind := by
  induction atoms with
  | nil => rfl
  | cons e atoms ih =>
    obtain ⟨hatom, hatoms⟩ := List.forall_mem_cons.1 h
    cases e with
    | list elements pos => cases hatom
    | atom a pos =>
      show ' ' :: (a.spelling ++ SExp.writeRest indent depth .sameLine (atoms ++ rest) behind) = _
      rw [ih hatoms, spelled, spelled, List.flatMap_cons, SExp.write]
      simp

/-- Lists begin lines of their own. -/
theorem writeRest_lists {lists : List SExp} (h : ∀ e ∈ lists, e.isList = true) (behind : List Char) : ∀ place,
    SExp.writeRest indent depth place lists behind
      = lists.flatMap (fun e => '\n' :: (List.replicate (depth * indent) ' ' ++ SExp.write indent depth e []))
        ++ ')' :: behind := by
  induction lists with
  | nil =>
    intro place
    rfl
  | cons e lists ih =>
    intro place
    obtain ⟨hlist, hlists⟩ := List.forall_mem_cons.1 h
    have hnext : place.next e = .ownLine := by simp [Place.next, hlist]
    have hlead : place.lead (depth * indent) e = '\n' :: List.replicate (depth * indent) ' ' := by
      simp [Place.lead, hnext]
    rw [SExp.writeRest, hnext, hlead, SExp.write_eq_append, ih hlists, List.flatMap_cons]
    simp

end Layout

section Written

theorem spelled_argument (kind : Kind) : spelled kind.argument = kind.argumentText := by
  rcases kind with (_ | selector) | target | ⟨tag, (_ | text)⟩ <;>
    simp [spelled, Kind.argument, Kind.argumentText, SExp.string, SExp.nil, SExp.write, Atom.spelling]

theorem spelled_locationFields (assumed : Option String) (location : Location) :
    spelled (locationFields assumed location) = locationText assumed location := by
  by_cases hfile : assumed = some location.filename <;>
    simp [spelled, locationFields, locationText, hfile, SExp.string, SExp.number, SExp.keyword, SExp.write,
      Atom.spelling]

theorem spelled_inheritedField (inherited : Bool) : spelled (inheritedField inherited) = inheritedText inherited := by
  cases inherited <;> rfl

variable (showLocations : Bool) (around : List Node) (n : Node)

/-- What is written behind the name of a node and in front of its children. -/
def ownElements : List SExp :=
  n.kind.argument ++ ((if showLocations then locationFields (assumedFile? around) n.location else [])
    ++ inheritedField n.inherited)

/-- The list that is written for a node has elements that are its own, and behind them the lists of its children. -/
theorem toSExp_eq_ownElements : n.toSExp showLocations (assumedFile? around) = .list (.symbol n.kind.name ::
    (n.ownElements showLocations around ++ n.children.map (toSExp showLocations (assumedFile? (n :: around)))))
    .synthetic := by
  obtain ⟨kind, children, inherited, location⟩ := n
  simp [toSExp, toSExps_eq_map, SExp.ofList, ownElements, assumedFile?]

/-- The elements of its own are atoms, so they stay on the line of the node. -/
theorem isList_ownElements : ∀ e ∈ n.ownElements showLocations around, e.isList = false := by
  rw [ownElements, List.forall_mem_append, List.forall_mem_append]
  refine ⟨?_, ?_, ?_⟩
  · rcases n.kind with (_ | selector) | target | ⟨tag, (_ | text)⟩ <;>
      simp [Kind.argument, SExp.isList, SExp.string, SExp.nil]
  · by_cases hfile : assumedFile? around = some n.location.filename <;> cases showLocations <;>
      simp [locationFields, hfile, SExp.isList, SExp.string, SExp.number, SExp.keyword]
  · cases n.inherited <;> simp [inheritedField, SExp.isList, SExp.keyword, SExp.symbol]

/-- The line of a node is the parenthesis, the name and the atoms of its own. -/
theorem headline_eq : n.headline showLocations around
    = '(' :: (n.kind.name.toList ++ spelled (n.ownElements showLocations around)) := by
  have hlocation : spelled (if showLocations then locationFields (assumedFile? around) n.location else [])
      = if showLocations then locationText (assumedFile? around) n.location else [] := by
    cases showLocations
    · rfl
    · exact spelled_locationFields _ _
  rw [headline, ← hlocation, ← spelled_argument, ← spelled_inheritedField]
  simp [spelled, ownElements]

/-- What is printed for a tree whose root has the given nodes around it, but for its margin. -/
def text (indent : Nat) : List Char :=
  SExp.write indent around.length (n.toSExp showLocations (assumedFile? around)) []

/-- **A node stands in front of its children,** and each of them begins a line. -/
theorem text_eq (indent : Nat) : n.text showLocations around indent = n.headline showLocations around
    ++ (n.children.flatMap (fun c => '\n' :: (List.replicate ((around.length + 1) * indent) ' '
      ++ c.text showLocations (n :: around) indent)) ++ [')']) := by
  have hlists : ∀ e ∈ n.children.map (toSExp showLocations (assumedFile? (n :: around))), e.isList = true := by
    intro e he
    obtain ⟨c, -, rfl⟩ := List.mem_map.1 he
    exact isList_toSExp _ _ c
  have hown := writeRest_atoms indent (around.length + 1) (n.isList_ownElements showLocations around)
    (n.children.map (toSExp showLocations (assumedFile? (n :: around)))) []
  rw [writeRest_lists indent (around.length + 1) hlists, List.flatMap_map] at hown
  rw [text, toSExp_eq_ownElements, headline_eq]
  show '(' :: (n.kind.name.toList ++ SExp.writeRest indent (around.length + 1) .sameLine _ []) = _
  rw [hown]
  simp [text]

end Written

/-! ## The lines -/

section Lines

variable (indent : Nat) (showLocations : Bool)

/-- The line of a node, with the given number of nodes that end there. -/
def line (visit : Node × List Node) (ending : Nat) : List Char :=
  List.replicate (visit.2.length * indent) ' ' ++ (visit.1.headline showLocations visit.2 ++ List.replicate ending ')')

/-- The lines of some visits in a row. With the last node the given number of nodes around all of them end too. -/
def outline (visited : List (Node × List Node)) (more : Nat) : List (List Char) :=
  visited.mapIdx fun k visit =>
    line indent showLocations visit (endingAt (visited.map Prod.fst) k + if k + 1 = visited.length then more else 0)

variable {n : Node} {around : List Node} {front visited : List (Node × List Node)}

theorem outline_singleton (hnodes : n.countNodes = 1) (more : Nat) :
    outline indent showLocations [(n, around)] more = [line indent showLocations (n, around) (1 + more)] := by
  rw [outline, List.map_singleton, List.mapIdx_cons, endingAt_cons_zero, if_pos hnodes]
  rfl

/-- A node whose subtree is all that is visited ends with the last of it. -/
theorem outline_cons (hvisited : visited ≠ []) (hnodes : n.countNodes = visited.length + 1) (more : Nat) :
    outline indent showLocations ((n, around) :: visited) more
      = line indent showLocations (n, around) 0 :: outline indent showLocations visited (more + 1) := by
  have hlength : 0 < visited.length := List.length_pos_iff.2 hvisited
  have hfirst : ¬ n.countNodes = 1 := by omega
  rw [outline, List.mapIdx_cons, List.map_cons, endingAt_cons_zero, if_neg hfirst, List.length_cons,
    if_neg (by omega)]
  congr 1
  rw [outline, List.mapIdx_eq_mapIdx_iff]
  intro k hk
  rw [endingAt_cons_succ]
  refine congrArg (line indent showLocations visited[k]) ?_
  show (if n.countNodes = k + 2 then 1 else 0) + _ + _ = _
  by_cases hlast : k + 1 = visited.length
  · rw [if_pos (by omega), if_pos (by omega), if_pos hlast]
    omega
  · rw [if_neg (by omega), if_neg (by omega), if_neg hlast, Nat.zero_add]

/-- Where no node of the first visits ends with one of the others, their lines are put together. -/
theorem outline_append (hvisited : visited ≠ [])
    (hends : ∀ k, endingAt (front.map Prod.fst) (front.length + k) = 0) (more : Nat) :
    outline indent showLocations (front ++ visited) more
      = outline indent showLocations front 0 ++ outline indent showLocations visited more := by
  have hlength : 0 < visited.length := List.length_pos_iff.2 hvisited
  rw [outline, List.mapIdx_append, List.map_append, List.length_append]
  congr 1
  · rw [outline, List.mapIdx_eq_mapIdx_iff]
    intro k hk
    rw [endingAt_append_left _ _ (by rwa [List.length_map]), if_neg (by omega), ite_self]
  · rw [outline, List.mapIdx_eq_mapIdx_iff]
    intro k hk
    have hright := endingAt_append_right (front.map Prod.fst) (visited.map Prod.fst) k
    rw [List.length_map, hends, Nat.zero_add] at hright
    rw [Nat.add_comm k, hright]
    congr 2
    split <;> split <;> omega

theorem visitsAll_ne_nil {ns : List Node} (hns : ns ≠ []) : visitsAll around ns ≠ [] := by
  cases ns with
  | nil => exact absurd rfl hns
  | cons n ns => simp [visitsAll, visits_eq]

/-- Whether the node is printed line by line, wherever it stands: a line feed, its margin and its text, with some
    parentheses behind them, are the lines of its visits. -/
def Outlined (n : Node) : Prop :=
  ∀ around more, '\n' :: (List.replicate (around.length * indent) ' ' ++ (n.text showLocations around indent
    ++ List.replicate more ')')) = (outline indent showLocations (n.visits around) more).flatMap ('\n' :: ·)

/-- If trees are printed line by line, so are several of them in a row. -/
theorem texts_eq_outline (around : List Node) {ns : List Node} (hns : ns ≠ [])
    (h : ∀ n ∈ ns, n.Outlined indent showLocations) :
    ∀ more, ns.flatMap (fun n => '\n' :: (List.replicate (around.length * indent) ' '
      ++ n.text showLocations around indent)) ++ List.replicate more ')'
        = (outline indent showLocations (visitsAll around ns) more).flatMap ('\n' :: ·) := by
  induction ns with
  | nil => exact absurd rfl hns
  | cons n ns ih =>
    intro more
    obtain ⟨hfirst, hothers⟩ := List.forall_mem_cons.1 h
    cases ns with
    | nil =>
      have hlast := hfirst around more
      simpa [visitsAll] using hlast
    | cons m ns =>
      have hends : ∀ k, endingAt ((n.visits around).map Prod.fst) ((n.visits around).length + k) = 0 := by
        intro k
        rw [← List.length_map, map_fst_visits, ← countNodes_eq_length]
        exact endingAt_behind n k
      have hlater := ih (List.cons_ne_nil m ns) hothers more
      have hnow := hfirst around 0
      rw [visitsAll, outline_append indent showLocations (visitsAll_ne_nil (List.cons_ne_nil m ns)) hends,
        List.flatMap_append, ← hlater, ← hnow, List.flatMap_cons]
      simp

/-- **A tree is printed line by line.** -/
theorem outlined (n : Node) : n.Outlined indent showLocations := by
  induction n using childInduction with
  | step n ih =>
    intro around more
    rw [visits_eq, text_eq]
    have hnodes : n.countNodes = (visitsAll (n :: around) n.children).length + 1 := by
      rw [countNodes_eq, ← map_fst_visitsAll (fun c _ => map_fst_visits c) (n :: around), List.length_map]
    by_cases hchildren : n.children = []
    · rw [hchildren] at hnodes ⊢
      rw [visitsAll, outline_singleton indent showLocations hnodes, line, Nat.add_comm 1, List.replicate_succ]
      simp
    · have hbelow := texts_eq_outline indent showLocations (n :: around) hchildren ih (more + 1)
      rw [outline_cons indent showLocations (visitsAll_ne_nil hchildren) hnodes, List.flatMap_cons, ← hbelow, line,
        List.replicate_succ]
      simp

/-- No line of an outline holds a line feed, so the text breaks between lines and nowhere else. -/
theorem not_mem_of_mem_outline (hnames : ∀ n ∈ visited.map Prod.fst, '\n' ∉ n.kind.name.toList) {more : Nat}
    {l : List Char} (hl : l ∈ outline indent showLocations visited more) : '\n' ∉ l := by
  obtain ⟨k, hk, rfl⟩ := List.mem_mapIdx.1 hl
  have hname := hnames visited[k].1 (List.mem_map_of_mem (List.getElem_mem hk))
  simp [line, not_mem_headline hname]

/-- If no name has a line feed, a text has the lines that its visits say. -/
theorem splitOn_print (t : Node) (hnames : ∀ n ∈ t.preorder, '\n' ∉ n.kind.name.toList) :
    (t.print indent showLocations).toList.splitOn '\n' = outline indent showLocations (t.visits []) 0 := by
  have hsome : outline indent showLocations (t.visits []) 0 ≠ [] := by simp [outline, visits_eq]
  have hall := outlined indent showLocations t [] 0
  rw [← List.cons_intercalate hsome] at hall
  have htext : (t.print indent showLocations).toList
      = ['\n'].intercalate (outline indent showLocations (t.visits []) 0) := by
    rw [print, SExp.print, String.toList_ofList]
    simpa [text, assumedFile?] using hall
  rw [htext]
  refine List.splitOn_intercalate '\n' (fun l hl => ?_) hsome
  exact not_mem_of_mem_outline indent showLocations (by rwa [map_fst_visits]) hl

/-- **A printed tree has one line for each node.** If no tag has a line feed, the text has as many lines as the tree has
    nodes, whatever the indentation and with or without locations, and the lines are those of the nodes in the order of
    a visit. A line is indented by as many steps as there are nodes around its node. Then come an opening parenthesis,
    the name of the node, its argument and its fields, and nothing else but one closing parenthesis for each node whose
    subtree ends there. -/
theorem lines_print {t : Node}
    (htags : ∀ n ∈ t.preorder, ∀ tag text, n.kind = .other tag text → '\n' ∉ tag.toList) :
    ((t.print indent showLocations).toList.splitOn '\n').length = t.countNodes ∧
      ∀ k n, t.preorder[k]? = some n → ∃ around, (t.visits [])[k]? = some (n, around) ∧
        ((t.print indent showLocations).toList.splitOn '\n')[k]?
          = some (List.replicate (around.length * indent) ' ' ++ (n.headline showLocations around
            ++ List.replicate (endingAt t.preorder k) ')')) := by
  have hnames : ∀ n ∈ t.preorder, '\n' ∉ n.kind.name.toList := by
    intro n hn
    rcases hkind : n.kind with selector | target | ⟨tag, text⟩
    · show '\n' ∉ "rule".toList
      decide
    · show '\n' ∉ "inherit".toList
      decide
    · exact htags n hn tag text hkind
  rw [splitOn_print indent showLocations t hnames]
  have hvisits := map_fst_visits t []
  refine ⟨?_, fun k n hn => ?_⟩
  · rw [outline, List.length_mapIdx, countNodes_eq_length, ← hvisits, List.length_map]
  · rw [← hvisits, List.getElem?_map, Option.map_eq_some_iff] at hn
    obtain ⟨⟨_, around⟩, hvisit, rfl⟩ := hn
    refine ⟨around, hvisit, ?_⟩
    rw [outline, List.getElem?_mapIdx, hvisit, hvisits, Option.map_some, ite_self, Nat.add_zero, line]

end Lines

/-- A page with a tag of two words and a line feed in a text. -/
def outlinedPage : Node :=
  { root "page.css" with
    children := [{ rule ".a" with children := [declaration "x\n"] }, ofKind (.other "two words" none)] }

theorem lines_print_outlinedPage :
    ((outlinedPage.print 3 false).toList.splitOn '\n').length = 4 ∧
      ((outlinedPage.print 3 false).toList.splitOn '\n')[2]? = some "      (prop \"x\\n\"))".toList := by
  have htags : ∀ n ∈ outlinedPage.preorder, ∀ tag text, n.kind = .other tag text → '\n' ∉ tag.toList := by
    have hnames : ∀ n ∈ outlinedPage.preorder, '\n' ∉ n.kind.name.toList := by decide
    intro n hn tag text hkind
    have hname := hnames n hn
    rwa [hkind] at hname
  obtain ⟨hlength, hlines⟩ := lines_print 3 false htags
  obtain ⟨around, haround, hline⟩ := hlines 2 (declaration "x\n") rfl
  cases haround
  exact ⟨hlength, hline⟩

end StyleTree.Node
