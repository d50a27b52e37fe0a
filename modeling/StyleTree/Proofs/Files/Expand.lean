import StyleTree.Files.Expand
import StyleTree.Files.Tree
import StyleTree.Proofs.Files.Path

/-!
# `Proofs.Files.Expand` — the files that names without wildcards stand for

A name without wildcards is a pattern in any case (`parse_path_of_wildcardFree`), and all its parts are looked up. So a
path stands for itself if the files give it, once its parts are put together again, for what is there under it, and
nothing if there is nothing (`NamesItself`). Then a list of such paths is expanded to the list itself, sorted and each
path once: `expandPatterns_of_namesItself`.

Paths that are names with slashes between them are put together as they were. So a `PlainPath` names itself where
everything that is present lies in directories that are present, and files in memory are such files
(`FileTree.presentInside`).
-/

namespace StyleTree

/-! ## Patterns -/

/-- No character of the path is a wildcard or opens a class. -/
def WildcardFree (path : String) : Prop :=
  ∀ c ∈ path.toList, c ≠ '*' ∧ c ≠ '?' ∧ c ≠ '['

instance (path : String) : Decidable (WildcardFree path) :=
  List.decidableBAll (fun c => c ≠ '*' ∧ c ≠ '?' ∧ c ≠ '[') path.toList

/-- The pattern of a name without wildcards. -/
def literalPart (name : String) : Pattern :=
  name.toList.map .char

/-- Where nothing is a wildcard, every character stands for itself. -/
theorem parseFrom_of_wildcardFree {text : List Char} (h : ∀ c ∈ text, c ≠ '*' ∧ c ≠ '?' ∧ c ≠ '[')
    (position : Nat) (before : Option Char) :
    Pattern.parseFrom position before text = .ok (text.map .char) := by
  induction text generalizing position before with
  | nil => simp [Pattern.parseFrom]
  | cons c rest ih =>
    obtain ⟨hstar, hquestion, hbracket⟩ := h c List.mem_cons_self
    rw [Pattern.parseFrom, ih fun d hd => h d (List.mem_cons_of_mem _ hd)]
    · rfl
    · exact hquestion
    · exact hstar
    · exact hbracket

theorem parse_of_wildcardFree {name : String} (h : WildcardFree name) :
    Pattern.parse name = .ok (literalPart name) :=
  parseFrom_of_wildcardFree h 0 none

/-- Such a pattern is recognised as a name, by which a look-up is made of it. -/
theorem literal?_literalPart (name : String) : (literalPart name).literal? = some name := by
  have hchars : ∀ text : List Char, (text.map Wildcard.char).mapM Pattern.literal?.char? = some text := by
    intro text
    induction text with
    | nil => rfl
    | cons c rest ih =>
      rw [List.map_cons, List.mapM_cons, ih]
      rfl
  rw [Pattern.literal?, literalPart, hchars, Option.map_some, String.ofList_toList]

theorem mapM_parse_of_wildcardFree {names : List String} (h : ∀ name ∈ names, WildcardFree name) :
    names.mapM Pattern.parse = .ok (names.map literalPart) := by
  induction names with
  | nil => rfl
  | cons name names ih =>
    rw [List.mapM_cons, parse_of_wildcardFree (h name List.mem_cons_self),
      ih fun other hother => h other (List.mem_cons_of_mem _ hother)]
    rfl

/-- No name is two stars, so none is joined with the part behind it. -/
theorem joinDepths_literalParts (names : List String) :
    PathPattern.joinDepths (names.map literalPart) = names.map literalPart := by
  induction names with
  | nil => rfl
  | cons name names ih =>
    have hpart : literalPart name ≠ [.anyDepth] := by
      intro h
      unfold literalPart at h
      cases hname : name.toList with
      | nil => simp [hname] at h
      | cons c rest => simp [hname] at h
    rw [List.map_cons, PathPattern.joinDepths, ih, if_neg fun h => hpart h.1]

/-- The pieces of a path have no wildcard that the path does not have. -/
theorem WildcardFree.piece {path piece : String} (h : WildcardFree path) (hpiece : piece ∈ pathPieces path) :
    WildcardFree piece := by
  intro c hc
  obtain ⟨chars, hchars, rfl⟩ := List.mem_map.1 hpiece
  rw [String.toList_ofList] at hc
  exact h c (List.mem_of_mem_splitOn hchars hc)

theorem mem_pathPieces_of_mem_closedPieces {path piece : String} (h : piece ∈ PathPattern.closedPieces path) :
    piece ∈ pathPieces path := by
  unfold PathPattern.closedPieces at h
  split at h
  · next only hpieces => rwa [hpieces]
  · split at h
    · exact (List.dropLast_sublist _).subset h
    · exact h

/-- The directory that a path starts from, and the path from there. -/
def startOf (path : String) : String × String :=
  match path.toList with
  | '/' :: relative => ("/", String.ofList relative)
  | _ => (Files.workingDirectory, path)

theorem WildcardFree.relative {path : String} (h : WildcardFree path) : WildcardFree (startOf path).2 := by
  unfold startOf
  split
  · next relative hpath =>
    intro c hc
    rw [String.toList_ofList] at hc
    exact h c (hpath ▸ List.mem_cons_of_mem _ hc)
  · exact h

/-- **A path without wildcards is a pattern,** all parts of which are names. -/
theorem parse_path_of_wildcardFree {path : String} (h : WildcardFree path) :
    PathPattern.parse path = .ok
      { base := (startOf path).1
        parts := (PathPattern.closedPieces (startOf path).2).map literalPart
        directoryOnly := path.toList.getLast? = some '/' } := by
  have hpieces : (PathPattern.closedPieces (startOf path).2).mapM Pattern.parse =
      .ok ((PathPattern.closedPieces (startOf path).2).map literalPart) :=
    mapM_parse_of_wildcardFree fun piece hpiece => h.relative.piece (mem_pathPieces_of_mem_closedPieces hpiece)
  have hparse : PathPattern.parse path = do
      let _ ← Pattern.parse path
      let parts ← (PathPattern.closedPieces (startOf path).2).mapM Pattern.parse
      return {
        base := (startOf path).1
        parts := PathPattern.joinDepths parts
        directoryOnly := path.toList.getLast? = some '/' } := rfl
  rw [hparse, parse_of_wildcardFree h, hpieces]
  show Except.ok _ = _
  rw [joinDepths_literalParts]

/-! ## Lists of paths -/

/-- What is there under the path is found by the path itself, up to how it is spelled, and nothing is found if there is
    nothing. -/
def NamesItself (files : Files Id) (path : String) : Prop :=
  ∀ pattern, PathPattern.parse path = .ok pattern →
    (files.isPresent path = true → ∃ found, pattern.find files = [found] ∧ pathParts found = pathParts path) ∧
      (files.isPresent path = false → pattern.find files = [])

section NamesItself

variable {files : Files Id} {paths : List String}

/-- A path that names itself is found or taken as it is. -/
theorem exists_named {path : String} (hfree : WildcardFree path) (hnames : NamesItself files path) :
    ∃ pattern found, PathPattern.parse path = .ok pattern ∧
      (if (pattern.find files).isEmpty then [path] else pattern.find files) = [found] ∧
        pathParts found = pathParts path := by
  obtain ⟨pattern, hparse⟩ : ∃ pattern, PathPattern.parse path = .ok pattern := ⟨_, parse_path_of_wildcardFree hfree⟩
  obtain ⟨hpresent, habsent⟩ := hnames pattern hparse
  cases hthere : files.isPresent path with
  | true =>
    obtain ⟨found, hfound, hparts⟩ := hpresent hthere
    exact ⟨pattern, found, hparse, by rw [hfound]; rfl, hparts⟩
  | false => exact ⟨pattern, path, hparse, by rw [habsent hthere]; rfl, rfl⟩

theorem findPatterns_of_namesItself (hfree : ∀ path ∈ paths, WildcardFree path)
    (hnames : ∀ path ∈ paths, NamesItself files path) :
    ∃ found, findPatterns files paths = Except.ok found ∧ found.map pathParts = paths.map pathParts := by
  induction paths with
  | nil => exact ⟨[], rfl, rfl⟩
  | cons path paths ih =>
    obtain ⟨others, hothers, hsame⟩ := ih (fun p hp => hfree p (List.mem_cons_of_mem _ hp))
      fun p hp => hnames p (List.mem_cons_of_mem _ hp)
    obtain ⟨pattern, found, hparse, hfound, hparts⟩ :=
      exists_named (hfree path List.mem_cons_self) (hnames path List.mem_cons_self)
    refine ⟨found :: others, ?_, by rw [List.map_cons, List.map_cons, hparts, hsame]⟩
    have hstep : findPatterns files (path :: paths) = (findPatterns files paths).map
        ((if (pattern.find files).isEmpty then [path] else pattern.find files) ++ ·) := by
      rw [findPatterns, hparse]
      rfl
    rw [hstep, hfound, hothers]
    rfl

/-- **Paths that name themselves are listed,** in order and each once. -/
theorem expandPatterns_of_namesItself (hfree : ∀ path ∈ paths, WildcardFree path)
    (hnames : ∀ path ∈ paths, NamesItself files path) :
    ∃ listed, expandPatterns files paths = Except.ok listed ∧ listed.Pairwise PathLt ∧
      ∀ parts, parts ∈ listed.map pathParts ↔ parts ∈ paths.map pathParts := by
  obtain ⟨found, hfound, hsame⟩ := findPatterns_of_namesItself hfree hnames
  refine ⟨sortPaths found, ?_, pairwise_sortPaths found, fun parts => ?_⟩
  · show Except.map sortPaths (findPatterns files paths) = _
    rw [hfound]
    rfl
  · rw [← hsame, List.mem_map, List.mem_map]
    exact exists_mem_sortPaths_iff

end NamesItself

/-! ## Plain paths -/

/-- A name that is one piece of a path and leads into a directory. -/
def PlainName (name : String) : Prop :=
  name ≠ "" ∧ name ≠ "." ∧ name ≠ ".." ∧ '/' ∉ name.toList

instance (name : String) : Decidable (PlainName name) :=
  inferInstanceAs (Decidable (name ≠ "" ∧ name ≠ "." ∧ name ≠ ".." ∧ '/' ∉ name.toList))

/-- A path that is such names with a slash between one and the next. -/
def PlainPath (path : String) : Prop :=
  ∃ names, names ≠ [] ∧ (∀ name ∈ names, PlainName name) ∧ path = "/".intercalate names

section PlainPath

variable {names : List String}

/-- Names that are joined by slashes are the pieces of the path that they make. -/
theorem pathPieces_intercalate (hnonempty : names ≠ []) (hplain : ∀ name ∈ names, PlainName name) :
    pathPieces ("/".intercalate names) = names := by
  have hchars : ∀ chars ∈ names.map String.toList, '/' ∉ chars := by
    intro chars hmem
    obtain ⟨name, hname, rfl⟩ := List.mem_map.1 hmem
    exact (hplain name hname).2.2.2
  have hslash : "/".toList = ['/'] := rfl
  rw [pathPieces, String.toList_intercalate, hslash, List.splitOn_intercalate '/' hchars (by simpa using hnonempty),
    List.map_map]
  exact List.map_id'' (fun name => String.ofList_toList) names

theorem intercalate_ne_empty (hnonempty : names ≠ []) (hplain : ∀ name ∈ names, PlainName name) :
    "/".intercalate names ≠ "" := by
  intro h
  have hpieces := pathPieces_intercalate hnonempty hplain
  have hnone : pathPieces "" = [""] := rfl
  rw [h, hnone] at hpieces
  exact (hplain "" (hpieces ▸ List.mem_singleton_self "")).1 rfl

/-- A path of plain names is not the working directory. -/
theorem pathParts_ne_current_of_plain (hnonempty : names ≠ []) (hplain : ∀ name ∈ names, PlainName name) :
    pathParts ("/".intercalate names) ≠ [.current] := by
  intro h
  rw [pathParts, pathPieces_intercalate hnonempty hplain] at h
  split at h
  · cases h
  · exact (hplain "." List.mem_cons_self).2.1 rfl
  · obtain ⟨name, -, hpart⟩ := List.mem_filterMap.1 (h ▸ List.mem_singleton_self PathPart.current)
    exact PathPart.ofPiece?_ne_current name hpart

theorem getLast?_ne_slash (hnonempty : names ≠ []) (hplain : ∀ name ∈ names, PlainName name) :
    ("/".intercalate names).toList.getLast? ≠ some '/' := by
  intro h
  have hempty := nil_mem_pathPieces_of_trailing h
  rw [pathPieces_intercalate hnonempty hplain] at hempty
  exact (hplain "" hempty).1 rfl

theorem joinPath_workingDirectory (next : String) : Files.joinPath Files.workingDirectory next = next :=
  if_pos (by decide)

/-- To go on from a path of plain names is to put one more name behind it. -/
theorem joinPath_intercalate {name : String} (hnonempty : names ≠ []) (hplain : ∀ name ∈ names, PlainName name) :
    Files.joinPath ("/".intercalate names) name = "/".intercalate (names ++ [name]) := by
  rw [Files.joinPath, if_neg (pathParts_ne_current_of_plain hnonempty hplain), Files.appendPath,
    if_neg (getLast?_ne_slash hnonempty hplain),
    String.intercalate_append_of_ne_nil hnonempty (by simp), String.intercalate_singleton]

/-- A part that is a name is looked up in the directory reached so far. -/
theorem findFrom_of_literal {m : Type → Type} [Monad m] {files : Files m} {directoryOnly : Bool} {path name : String}
    {part : Pattern} {rest : List Pattern} (h : part.literal? = some name) :
    PathPattern.findFrom files directoryOnly path (part :: rest) = (do
      let next := Files.joinPath path name
      let found ← if name = "." ∨ name = ".." then files.isDirectory path else files.isPresent next
      if found then PathPattern.findFrom files directoryOnly next rest else return []) := by
  -- The recursion looks two parts ahead behind two stars, so the match on the parts is opened by hand.
  delta PathPattern.findFrom
  conv => lhs; whnf
  rw [h]

/-- A plain name is looked up, and the rest of the pattern is followed from there; if there is nothing, nothing is
    found. -/
theorem findFrom_literalPart {files : Files Id} {path name : String} {rest : List Pattern} (hplain : PlainName name) :
    PathPattern.findFrom files false path (literalPart name :: rest) =
      match (files.isPresent (Files.joinPath path name) : Bool) with
      | true => PathPattern.findFrom files false (Files.joinPath path name) rest
      | false => [] := by
  obtain ⟨-, hdot, hdots, -⟩ := hplain
  rw [findFrom_of_literal (literal?_literalPart name)]
  dsimp only
  rw [if_neg (not_or.2 ⟨hdot, hdots⟩)]
  generalize files.isPresent (Files.joinPath path name) = present
  match present with
  | true => rfl
  | false => rfl

/-- Everything that is present lies in directories that are present. -/
def PresentInside (files : Files Id) : Prop :=
  ∀ directory relative, directory ≠ "" →
    files.isPresent (directory ++ "/" ++ relative) = true → files.isPresent directory = true

/-- **Names are followed to the end,** if there is something there. `start` is the directory reached so far. -/
theorem findFrom_literalParts {files : Files Id} {start name : String} {others : List String}
    (hinside : PresentInside files) (hplain : ∀ n ∈ names ++ name :: others, PlainName n)
    (hstart : ∀ next, Files.joinPath start next = "/".intercalate (names ++ [next])) :
    PathPattern.findFrom files false start ((name :: others).map literalPart) =
      match (files.isPresent ("/".intercalate (names ++ name :: others)) : Bool) with
      | true => ["/".intercalate (names ++ name :: others)]
      | false => [] := by
  induction others generalizing names name start with
  | nil =>
    rw [List.map_cons, findFrom_literalPart (hplain name (by simp)), hstart]
    rfl
  | cons other others ih =>
    rw [List.map_cons, findFrom_literalPart (hplain name (by simp)), hstart]
    have hassoc : names ++ name :: other :: others = names ++ [name] ++ other :: others := by simp
    rw [hassoc] at hplain ⊢
    have hnames : ∀ n ∈ names ++ [name], PlainName n := fun n hn => hplain n (List.mem_append_left _ hn)
    cases hnext : (files.isPresent ("/".intercalate (names ++ [name])) : Bool) with
    | true => exact ih hplain fun next => joinPath_intercalate (by simp) hnames
    | false =>
      cases hlast : (files.isPresent ("/".intercalate (names ++ [name] ++ other :: others)) : Bool) with
      | false => rfl
      | true =>
        -- What stands behind a name that is missing cannot be there.
        rw [String.intercalate_append_of_ne_nil (by simp) (by simp)] at hlast
        have hstill := hinside _ _ (intercalate_ne_empty (by simp) hnames) hlast
        rw [hstill] at hnext
        cases hnext

/-- A plain path is followed from the working directory, name by name. -/
theorem parse_path_of_plain (hnonempty : names ≠ []) (hplain : ∀ name ∈ names, PlainName name)
    (hfree : WildcardFree ("/".intercalate names)) :
    PathPattern.parse ("/".intercalate names) = .ok
      { base := Files.workingDirectory, parts := names.map literalPart, directoryOnly := false } := by
  have hpieces := pathPieces_intercalate hnonempty hplain
  have hstart : startOf ("/".intercalate names) = (Files.workingDirectory, "/".intercalate names) := by
    unfold startOf
    split
    · next relative hpath =>
      -- A slash at the start would leave an empty piece in front of it.
      have hempty : "" ∈ names := by
        rw [← hpieces, pathPieces, hpath]
        show "" ∈ (List.splitOn '/' ([] ++ '/' :: relative)).map String.ofList
        rw [List.splitOn_append_cons_self, List.splitOn_nil]
        exact List.mem_cons_self
      exact absurd rfl (hplain "" hempty).1
    · rfl
  have hclosed : PathPattern.closedPieces ("/".intercalate names) = names := by
    unfold PathPattern.closedPieces
    rw [hpieces]
    split
    · rfl
    · rw [if_neg fun hlast => (hplain "" (List.mem_of_getLast? hlast)).1 rfl]
  rw [parse_path_of_wildcardFree hfree, hstart, hclosed, decide_eq_false (getLast?_ne_slash hnonempty hplain)]

/-- **A plain path names itself** where everything that is present lies in directories that are present. -/
theorem namesItself_of_plain {files : Files Id} {path : String} (hinside : PresentInside files)
    (hplain : PlainPath path) (hfree : WildcardFree path) : NamesItself files path := by
  obtain ⟨names, hnonempty, hnames, rfl⟩ := hplain
  intro pattern hparse
  rw [parse_path_of_plain hnonempty hnames hfree] at hparse
  cases hparse
  obtain ⟨name, others, rfl⟩ := List.exists_cons_of_ne_nil hnonempty
  have hall : ∀ n ∈ [] ++ name :: others, PlainName n := hnames
  have hstart : ∀ next, Files.joinPath Files.workingDirectory next = "/".intercalate ([] ++ [next]) := by
    intro next
    rw [List.nil_append, String.intercalate_singleton]
    exact joinPath_workingDirectory next
  have hfound : PathPattern.find files
      { base := Files.workingDirectory, parts := (name :: others).map literalPart, directoryOnly := false } = _ :=
    findFrom_literalParts hinside hall hstart
  rw [hfound, List.nil_append]
  constructor
  · intro hpresent
    rw [hpresent]
    exact ⟨_, rfl, rfl⟩
  · intro habsent
    rw [habsent]

end PlainPath

/-! ## Files in memory -/

namespace FileTree

/-- Whatever is reached at the end, something is reached at each piece before it. -/
theorem isOk_follow_of_append {tree : FileTree} {names pieces more : List String}
    (h : (tree.follow names (pieces ++ more)).isOk = true) : (tree.follow names pieces).isOk = true := by
  induction pieces generalizing names with
  | nil =>
    cases hentry : tree.entry? names with
    | none =>
      -- Without an entry no piece is looked at.
      cases more <;> simp [follow, hentry, Except.isOk, Except.toBool] at h
    | some entry => simp [follow, hentry, Except.isOk, Except.toBool]
  | cons piece pieces ih =>
    rw [List.cons_append, follow] at h
    rw [follow]
    split at h
    · cases h
    · cases h
    · split at h
      · next hstay => rw [if_pos hstay]; exact ih h
      · next hleave =>
        rw [if_neg hleave]
        split at h
        · next hup => rw [if_pos hup]; exact ih h
        · next hdown =>
          rw [if_neg hdown]
          split at h
          · cases h
          · next hshort => rw [if_neg hshort]; exact ih h

/-- In memory, whatever is present lies in directories that are present. -/
theorem presentInside (tree : FileTree) (input : String) : PresentInside (tree.files input) := by
  intro directory relative hnonempty hpresent
  show (tree.resolve directory).isOk = true
  replace hpresent : (tree.resolve (directory ++ "/" ++ relative)).isOk = true := hpresent
  unfold resolve at hpresent ⊢
  rw [String.utf8ByteSize_append, String.utf8ByteSize_append, pathPieces_append_slash] at hpresent
  split at hpresent
  · cases hpresent
  · rw [if_neg (by omega)]
    split
    · next hpieces => exact absurd (eq_empty_of_pathPieces hpieces) hnonempty
    · next pieces hmore hpieces =>
      rw [hpieces, List.cons_append] at hpresent
      split at hpresent
      · cases hpresent
      · next hsame =>
        cases hsame
        exact isOk_follow_of_append hpresent
      · next hrooted => exact absurd rfl (hrooted _)
    · next hone hrooted =>
      obtain ⟨piece, others, hpieces⟩ := List.exists_cons_of_ne_nil (pathPieces_ne_nil directory)
      rw [hpieces] at hpresent hrooted ⊢
      split at hpresent
      · cases hpresent
      · next hsame =>
        cases hsame
        exact absurd rfl (hrooted others)
      · exact isOk_follow_of_append hpresent

end FileTree

end StyleTree
