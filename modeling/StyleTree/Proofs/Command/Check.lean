import StyleTree.Command.Run
import StyleTree.Proofs.Command.Arguments
import StyleTree.Proofs.Files.Expand
import StyleTree.Proofs.Inherit.Accounting

/-!
# `Proofs.Command.Check` — checking many files and resolving one

To check a file and to resolve it are two ways through the program: one counts the markers of a tree before it is
resolved, the other prints what was counted while it was. Both read the tree in the same way, and both fail where it
cannot be resolved, so a check says of each file what happens to it alone.

What a check prints is spelled out here, escape sequences and line ends included, and a line is judged by the run that
resolves its file alone (`LineTells`). The two meet in what a check finds out about a file (`verdict`):
`tells_resolving` ties it to that run, `lineTells_of_tells` to the line, and `run_check_agrees` puts the lines together.
-/

namespace StyleTree

/-! ## What is printed -/

/-- A word in the style with the given numbers, as it is sent to a terminal, or as it is where nothing is coloured. -/
def inStyle (colored : Bool) (numbers word : String) : String :=
  if colored then "\x1b[" ++ numbers ++ "m" ++ word ++ "\x1b[0m" else word

/-- Whether a text ends with the counts of a run, line by line, and the given number of markers among them. -/
def EndsWithCounts (colored : Bool) (markers : Nat) (text : String) : Prop :=
  ∃ (before : String) (scopes nodes rules : Nat), text = before
    ++ "\n" ++ inStyle colored "1;4" "Inherit statistics" ++ "\n"
    ++ "  " ++ inStyle colored "1" "Scopes" ++ s!": {scopes}\n"
    ++ "  " ++ inStyle colored "1" "Markers spliced" ++ s!": {markers}\n"
    ++ "  " ++ inStyle colored "1" "Nodes spliced" ++ s!": {nodes}\n"
    ++ "  " ++ inStyle colored "1" "Rules merged" ++ s!": {rules}\n"

/-- Whether a line tells what becomes of a file that is resolved alone, whatever the format and with the counts or
    without them. -/
inductive LineTells (colored : Bool) (path : String) (alone : Option OutputFormat → Bool → Outcome) : String → Prop
  /-- The run exits with zero, and with the counts it shows as many spliced markers as the line names. -/
  | ok {markers : Nat} : (∀ format? stats, (alone format? stats).code = 0) →
      (∀ format?, EndsWithCounts colored markers (alone format? true).errors) →
      LineTells colored path alone (inStyle colored "1;32" "ok" ++ s!" {path} ({markers} @inherit)")
  /-- The run does not exit with zero. -/
  | failed : (∀ format? stats, (alone format? stats).code ≠ 0) →
      LineTells colored path alone (inStyle colored "1;31" "FAILED" ++ s!" {path}")

theorem paint_eq_inStyle (colored : Bool) {styles : List Style} {word : String} (hword : '\x1b' ∉ word.toList) :
    paint colored styles word = inStyle colored (";".intercalate (styles.map Style.code)) word := by
  have hpieces : word.splitOn resetSequence = [word] := String.splitOn_eq_singleton rfl hword
  cases colored with
  | false => rfl
  | true =>
    show styleSequence styles ++ _ ++ resetSequence = _
    rw [hpieces, String.intercalate_singleton]
    rfl

/-! ## Settings -/

/-- There are settings, and the log level they name exists if it is needed. -/
structure Configured (files : Files Id) (shared : Invocation) (settings : Settings) : Prop where
  loaded : Settings.load files shared.config? = Except.ok settings
  level : shared.verbose = true ∨ ∃ level, settings.level = .ok level

/-- Whether messages are coloured. -/
def messagesColored (terminal : Bool) (settings : Settings) (shared : Invocation) : Bool :=
  terminal && settings.color && !shared.noColor

/-- **With settings that can be used, a run is its command.** -/
theorem run_of_configured {files : Files Id} {invocation : Invocation} {settings : Settings} {arguments : List String}
    (terminal : Bool) (hsettings : Configured files invocation settings)
    (harguments : Invocation.ofArguments arguments = .ok invocation) :
    run files terminal arguments =
      invocation.command.run files settings (messagesColored terminal settings invocation) := by
  obtain ⟨hloaded, hlevel⟩ := hsettings
  have hlog : ∃ level, (if invocation.verbose then .ok .debug else settings.level) = Except.ok level := by
    rcases hlevel with hverbose | ⟨level, hlevel⟩
    · exact ⟨.debug, if_pos hverbose⟩
    · rw [hlevel]
      split
      · exact ⟨.debug, rfl⟩
      · exact ⟨level, rfl⟩
  obtain ⟨level, hlog⟩ := hlog
  rw [run, harguments]
  dsimp only
  rw [hloaded]
  dsimp only [bind, pure]
  rw [hlog]
  rfl

/-! ## One file -/

/-- What a check finds out about a file. -/
def verdict (files : Files Id) (path : String) : Except CommandError Nat :=
  checkFile files path

/-- The command line that resolves the tree in a file alone, with the options that all commands share. -/
def Invocation.resolving (shared : Invocation) (path : String) (format? : Option OutputFormat) (stats : Bool) :
    List String :=
  ({ shared with command := .resolve path format? stats } : Invocation).words

/-- The verdict on a file tells whether a tree is printed by what is done to it alone, and how many markers are spliced
    then: as many as are shown with the counts of the run. -/
def Tells (colored stats : Bool) (alone : Outcome) (verdict : Except CommandError Nat) : Prop :=
  (verdict.isOk = true ↔ alone.code = 0) ∧
    ∀ markers, verdict = .ok markers → stats = true → EndsWithCounts colored markers alone.errors

/-- A run splices the markers that are counted before it. -/
theorem markersSpliced_resolved {n resolved : Node} {stats : Stats} (h : n.resolved = (.ok resolved, stats)) :
    stats.markersSpliced = n.countMarkers := by
  rw [Node.resolve_counted h, ← Stats.zero_def, zero_add]
  rfl

/-- The counts of a run are printed as they are spelled out. -/
theorem endsWithCounts_lines (colored : Bool) (stats : Stats) :
    EndsWithCounts colored stats.markersSpliced (textOfLines (stats.lines colored)) := by
  have hpainted : ∀ styles word, '\x1b' ∉ word.toList →
      paint colored styles word = inStyle colored (";".intercalate (styles.map Style.code)) word :=
    fun _ _ => paint_eq_inStyle colored
  refine ⟨"", stats.scopes, stats.nodesSpliced, stats.rulesMerged, ?_⟩
  rw [textOfLines, Stats.lines, hpainted _ "Inherit statistics" (by decide), hpainted _ "Scopes" (by decide),
    hpainted _ "Markers spliced" (by decide), hpainted _ "Nodes spliced" (by decide),
    hpainted _ "Rules merged" (by decide)]
  simp only [List.map_cons, List.map_nil, String.join_cons, String.join_nil, String.append_assoc]
  rfl

theorem tells_of_failure {colored stats : Bool} {alone : Outcome} (error : CommandError) (h : alone.code ≠ 0) :
    Tells colored stats alone (.error error) := by
  constructor
  · constructor
    · intro hok
      cases hok
    · intro hcode
      exact absurd hcode h
  · intro markers hmarkers
    cases hmarkers

/-- **The verdict on a file tells what becomes of its tree.** Both fail where there is no tree to be read, and where it
    cannot be resolved. -/
theorem tells_resolveTree (files : Files Id) (settings : Settings) (colored : Bool) (path : String)
    (format : OutputFormat) (stats : Bool) :
    Tells colored stats (resolveTree files settings colored path format stats) (verdict files path) := by
  unfold resolveTree verdict checkFile
  generalize loadTree files path = loaded
  match loaded with
  | .error error => exact tells_of_failure error (Nat.succ_ne_zero 0)
  | .ok n =>
    dsimp only [bind, pure]
    cases hresolved : n.resolved with
    | mk outcome counts =>
      cases outcome with
      | error failure =>
        show Tells colored stats (Outcome.ofError colored (.unresolvable path failure)) (.error (.resolution failure))
        exact tells_of_failure (.resolution failure) (Nat.succ_ne_zero 0)
      | ok resolved =>
        show Tells colored stats ⟨0, _, if stats then textOfLines (counts.lines colored) else ""⟩ (.ok n.countMarkers)
        constructor
        · exact ⟨fun _ => rfl, fun _ => rfl⟩
        · intro markers hmarkers hstats
          cases hmarkers
          show EndsWithCounts colored n.countMarkers (if stats then textOfLines (counts.lines colored) else "")
          rw [if_pos hstats, ← markersSpliced_resolved hresolved]
          exact endsWithCounts_lines colored counts

/-- In memory nothing has an empty path, so no settings are found there. -/
theorem Configured.config?_ne_empty {tree : FileTree} {input : String} {shared : Invocation} {settings : Settings}
    (h : Configured (tree.files input) shared settings) : shared.config? ≠ some "" := by
  intro hempty
  have hloaded := h.loaded
  rw [hempty] at hloaded
  cases hloaded

/-- No tree is read where no path is given. -/
theorem verdict_empty (tree : FileTree) (input : String) :
    verdict (tree.files input) "" = .error (.unreadable "" .missing) :=
  rfl

/-- **The verdict on a file tells how a run on that file alone ends.** -/
theorem tells_resolving {tree : FileTree} {input : String} {shared : Invocation} {settings : Settings}
    (hsettings : Configured (tree.files input) shared settings) (terminal : Bool) (path : String)
    (format? : Option OutputFormat) (stats : Bool) :
    Tells (messagesColored terminal settings shared) stats
      (run (tree.files input) terminal (shared.resolving path format? stats)) (verdict (tree.files input) path) := by
  have hwords : Invocation.ofArguments (shared.resolving path format? stats) =
      if path != "" then .ok { shared with command := .resolve path format? stats } else .error .misuse :=
    ofArguments_words hsettings.config?_ne_empty
  by_cases hempty : path = ""
  · subst hempty
    have hrun : run (tree.files input) terminal (shared.resolving "" format? stats) = (⟨2, "", usageText⟩ : Outcome) := by
      rw [run, hwords]
      rfl
    rw [hrun, verdict_empty]
    exact tells_of_failure _ (Nat.succ_ne_zero 1)
  · rw [if_pos (bne_iff_ne.2 hempty)] at hwords
    have hsame : Configured (tree.files input) { shared with command := .resolve path format? stats } settings :=
      ⟨hsettings.loaded, hsettings.level⟩
    rw [run_of_configured terminal hsame hwords]
    exact tells_resolveTree ..

/-- **The line about a file tells how runs on that file alone end,** if the verdict does. -/
theorem lineTells_of_tells {colored : Bool} {path : String} {alone : Option OutputFormat → Bool → Outcome}
    {verdict : Except CommandError Nat} (h : ∀ format? stats, Tells colored stats (alone format? stats) verdict) :
    LineTells colored path alone (verdictLine colored path verdict) := by
  cases verdict with
  | ok markers =>
    have hline : verdictLine colored path (.ok markers) = inStyle colored "1;32" "ok" ++ s!" {path} ({markers} @inherit)" := by
      rw [verdictLine, paint_eq_inStyle colored (by decide)]
      rfl
    rw [hline]
    refine .ok (fun format? stats => ?_) fun format? => ?_
    · exact (h format? stats).1.1 rfl
    · exact (h format? true).2 markers rfl rfl
  | error error =>
    have hline : verdictLine colored path (.error error) = inStyle colored "1;31" "FAILED" ++ s!" {path}" := by
      rw [verdictLine, paint_eq_inStyle colored (by decide)]
      rfl
    rw [hline]
    refine .failed fun format? stats hcode => ?_
    cases (h format? stats).1.2 hcode

/-! ## All files -/

/-- Files are checked one after the other, each on its own. -/
theorem mapM_checkFile (files : Files Id) (listed : List String) :
    listed.mapM (checkFile files) = listed.map (verdict files) :=
  List.mapM_pure

theorem textOfLines_append (front back : List String) :
    textOfLines (front ++ back) = textOfLines front ++ textOfLines back := by
  rw [textOfLines, List.map_append, String.join_append]
  rfl

/-- A check prints a line for each file, an empty one, and the sum. -/
theorem checkFiles_eq {files : Files Id} {patterns listed : List String} (colored : Bool)
    (h : expandPatterns files patterns = Except.ok listed) :
    let outcome : Outcome := checkFiles files colored patterns
    let failed := listed.countP fun path => !(verdict files path).isOk
    outcome.output = textOfLines (listed.map fun path => verdictLine colored path (verdict files path))
        ++ s!"\n{listed.length} checked, {failed} failed\n" ∧
      outcome.code = if failed = 0 then 0 else 1 := by
  intro outcome failed
  have hfailed : (listed.map (verdict files)).countP (fun verdict => !verdict.isOk) = failed :=
    List.countP_map
  have hlines : (listed.zip (listed.map (verdict files))).map (fun c => verdictLine colored c.1 c.2)
      = listed.map fun path => verdictLine colored path (verdict files path) := by
    rw [← List.map_prod_left_eq_zip, List.map_map]
    rfl
  have hsum : textOfLines ["", s!"{listed.length} checked, {failed} failed"]
      = s!"\n{listed.length} checked, {failed} failed\n" := by
    simp only [textOfLines, List.map_cons, List.map_nil, String.join_cons, String.join_nil, String.append_assoc]
    rfl
  have houtcome : outcome = checkFiles files colored patterns := rfl
  rw [checkFiles, h] at houtcome
  dsimp only [bind, pure] at houtcome
  rw [mapM_checkFile, hfailed, hlines, textOfLines_append, hsum] at houtcome
  split at houtcome
  · next hnone =>
    rw [houtcome, if_pos hnone]
    exact ⟨rfl, rfl⟩
  · next hsome =>
    rw [houtcome, if_neg hsome]
    exact ⟨rfl, rfl⟩

/-- **A check agrees with resolving each file on its own.** Of paths that stand for themselves every one is listed once,
    in order, however often and in whatever spelling it is given. A check prints a line for each of them, which tells what
    becomes of the file alone: it says `ok` exactly where a run on that file exits with zero, with as many markers as such
    a run shows as spliced, and `FAILED` everywhere else. Behind an empty line it prints how many paths there are and how
    many of them fail, and it exits with zero if there are none. -/
theorem run_check_agrees {tree : FileTree} {input : String} {terminal : Bool} {shared : Invocation} {settings : Settings}
    {arguments paths : List String}
    (harguments : Invocation.ofArguments arguments = .ok { shared with command := .check paths })
    (hsettings : Configured (tree.files input) shared settings)
    (hfree : ∀ path ∈ paths, WildcardFree path)
    (hnames : ∀ path ∈ paths, NamesItself (tree.files input) path) :
    let outcome : Outcome := run (tree.files input) terminal arguments
    let alone : String → Option OutputFormat → Bool → Outcome := fun path format? stats =>
      run (tree.files input) terminal (shared.resolving path format? stats)
    ∃ listed lines : List String, listed.Pairwise PathLt ∧
      (∀ parts, parts ∈ listed.map pathParts ↔ parts ∈ paths.map pathParts) ∧
      List.Forall₂ (fun path => LineTells (messagesColored terminal settings shared) path (alone path)) listed lines ∧
      let failed := listed.countP fun path => (alone path none false).code ≠ 0
      outcome.output = String.join (lines.map (· ++ "\n")) ++ s!"\n{listed.length} checked, {failed} failed\n" ∧
        outcome.code = if failed = 0 then 0 else 1 := by
  intro outcome alone
  obtain ⟨listed, hlisted, hsorted, hsame⟩ := expandPatterns_of_namesItself hfree hnames
  have hconfigured : Configured (tree.files input) { shared with command := .check paths } settings :=
    ⟨hsettings.loaded, hsettings.level⟩
  have houtcome : outcome = checkFiles (tree.files input) (messagesColored terminal settings shared) paths :=
    run_of_configured terminal hconfigured harguments
  have htells := fun path => tells_resolving hsettings terminal path
  obtain ⟨houtput, hcode⟩ := checkFiles_eq (messagesColored terminal settings shared) hlisted
  have hfailed : (listed.countP fun path => !(verdict (tree.files input) path).isOk)
      = listed.countP fun path => (alone path none false).code ≠ 0 := by
    refine List.countP_congr fun path _ => ?_
    rw [decide_eq_true_iff, Ne, ← (htells path none false).1, Bool.not_eq_true, Bool.not_eq_true']
  rw [← houtcome, hfailed] at houtput hcode
  refine ⟨listed, _, hsorted, hsame, ?_, houtput, hcode⟩
  rw [List.forall₂_map_right_iff, List.forall₂_same]
  exact fun path _ => lineTells_of_tells fun format? stats => htells path format? stats

/-- A directory with a page and a file that holds no text. -/
def site : FileTree where
  entries := [
    (["site", "page.tree"], .file "(stylesheet (inherit \"reset\" (rule \".a\")) (rule \".a\"))".toUTF8),
    (["site", "image.tree"], .file ⟨#[0xff, 0xd8]⟩)]
  workingDirectory := ["site"]

/-- What is given for the site: the page twice, the image, and a file that is not there. -/
def sitePaths : List String :=
  ["page.tree", "image.tree", "page.tree", "lost.tree"]

theorem expandPatterns_site : expandPatterns (site.files "") sitePaths
    = Except.ok ["image.tree", "lost.tree", "page.tree"] := by
  have hpage : pathLe "page.tree" "image.tree" = false := by decide +kernel
  have himage : pathLe "image.tree" "lost.tree" = true := by decide +kernel
  have hlost : pathLe "page.tree" "lost.tree" = false := by decide +kernel
  have hagain : pathLe "page.tree" "page.tree" = true := by decide +kernel
  have hsorted : sitePaths.mergeSort pathLe = ["image.tree", "lost.tree", "page.tree", "page.tree"] := by
    simp [sitePaths, List.mergeSort, List.MergeSort.Internal.splitInTwo, hpage, himage, hlost, hagain]
  have honce : sortPaths sitePaths = ["image.tree", "lost.tree", "page.tree"] := by
    rw [sortPaths, hsorted]
    decide +kernel
  have hfound : Except.toOption (findPatterns (m := Id) (site.files "") sitePaths) = some sitePaths := by
    decide +kernel
  show Except.map sortPaths (findPatterns (m := Id) (site.files "") sitePaths) = _
  cases hpatterns : findPatterns (m := Id) (site.files "") sitePaths with
  | error error =>
    rw [hpatterns] at hfound
    cases hfound
  | ok found =>
    rw [hpatterns] at hfound
    cases hfound
    exact congrArg Except.ok honce

/-- The page is checked once; the image cannot be read, and neither can what is not there. -/
theorem run_check_agrees_site :
    let shared : Invocation := { command := .check [], noColor := true }
    let outcome : Outcome := run (site.files "") true ("--no-color" :: "lint" :: sitePaths)
    let alone : String → Option OutputFormat → Bool → Outcome := fun path format? stats =>
      run (site.files "") true (shared.resolving path format? stats)
    Invocation.ofArguments ("--no-color" :: "lint" :: sitePaths) = .ok { shared with command := .check sitePaths } ∧
      Configured (site.files "") shared {} ∧ (∀ path ∈ sitePaths, WildcardFree path) ∧
      (∀ path ∈ sitePaths, NamesItself (site.files "") path) ∧
      outcome.output = "FAILED image.tree\nFAILED lost.tree\nok page.tree (1 @inherit)\n\n3 checked, 2 failed\n" ∧
      ∃ listed lines : List String, listed.Pairwise PathLt ∧
        (∀ parts, parts ∈ listed.map pathParts ↔ parts ∈ sitePaths.map pathParts) ∧
        List.Forall₂ (fun path => LineTells false path (alone path)) listed lines ∧
        let failed := listed.countP fun path => (alone path none false).code ≠ 0
        outcome.output = String.join (lines.map (· ++ "\n")) ++ s!"\n{listed.length} checked, {failed} failed\n" ∧
          outcome.code = if failed = 0 then 0 else 1 := by
  intro shared outcome alone
  have hread : Invocation.ofArguments ("--no-color" :: "lint" :: sitePaths)
      = .ok { shared with command := .check sitePaths } := rfl
  have hsettings : Configured (site.files "") shared {} := by
    refine ⟨rfl, .inr ⟨.warn, ?_⟩⟩
    decide +kernel
  have hfree : ∀ path ∈ sitePaths, WildcardFree path := by decide
  have hplain : ∀ path ∈ sitePaths, PlainName path := by decide
  have hnames : ∀ path ∈ sitePaths, NamesItself (site.files "") path := by
    intro path hpath
    have hpiece : PlainPath path :=
      ⟨[path], List.cons_ne_nil _ _, List.forall_mem_singleton.2 (hplain path hpath), String.intercalate_singleton.symm⟩
    exact namesItself_of_plain (site.presentInside "") hpiece (hfree path hpath)
  have hprinted : outcome.output
      = "FAILED image.tree\nFAILED lost.tree\nok page.tree (1 @inherit)\n\n3 checked, 2 failed\n" := by
    have hchecking : Configured (site.files "") { shared with command := .check sitePaths } {} :=
      ⟨hsettings.loaded, hsettings.level⟩
    have houtcome : outcome = checkFiles (site.files "") false sitePaths := run_of_configured true hchecking hread
    rw [houtcome, (checkFiles_eq false expandPatterns_site).1]
    decide +kernel
  exact ⟨hread, hsettings, hfree, hnames, hprinted, @run_check_agrees _ _ true _ _ _ _ hread hsettings hfree hnames⟩

end StyleTree
