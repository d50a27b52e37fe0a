import StyleTree.Command.Arguments

/-!
# `Proofs.Command.Arguments` — command lines for everything that can be asked for

Every command can be written out: the options that all commands share, the name of the command, its own options and,
behind two hyphens, its operands (`Invocation.words`). What is written out in this way is read back
(`ofArguments_words`), so a command line can ask for whatever can be carried out.

Options written out are taken one after the other, whatever has been taken before them (`scan_words`). That lemma
carries both levels of the line.
-/

namespace StyleTree

/-! ## Words -/

/-- An option as one word, with its value behind an equals sign. -/
def Flag.word (flag : Flag) (value? : Option String) : String :=
  "--" ++ flag.long ++ (value?.map ("=" ++ ·)).getD ""

/-- The options that all commands share. -/
def Invocation.options (invocation : Invocation) : List (Flag × Option String) :=
  (invocation.config?.map fun path => (.config, some path)).toList
    ++ (if invocation.verbose then [(.verbose, none)] else [])
    ++ (if invocation.noColor then [(.noColor, none)] else [])

namespace Command

/-- The option for a format. -/
def formatOption (format? : Option OutputFormat) : List (Flag × Option String) :=
  (format?.map fun format => (.format, some format.name)).toList

/-- The options of a command itself. -/
def options : Command → List (Flag × Option String)
  | .resolve _ format? stats => formatOption format? ++ if stats then [(.stats, none)] else []
  | .print _ format? => formatOption format?
  | .check _ => []

/-- The operands of a command. -/
def operands : Command → List String
  | .resolve path .. | .print path _ => [path]
  | .check patterns => patterns

/-- The name of a command. -/
def name : Command → Name
  | .resolve .. => .resolve
  | .print .. => .print
  | .check _ => .check

/-- The first of the texts that name a command. -/
def Name.text : Name → String
  | .resolve => "resolve"
  | .print => "show"
  | .check => "check"

theorem Name.text_ne_help (name : Name) : name.text ≠ helpName := by
  cases name <;> decide

theorem Name.ofText?_text (name : Name) : ofText? name.text = some name := by
  cases name <;> rfl

/-- Whether a command names something: an empty path names nothing, and there is a pattern to look for. -/
def hasOperands : Command → Bool
  | .resolve path .. | .print path _ => path != ""
  | .check patterns => !patterns.isEmpty

end Command

/-- The words that ask for the options given. -/
def optionWords (given : List (Flag × Option String)) : List String :=
  given.map fun g => g.1.word g.2

/-- The command line that asks for an invocation. -/
def Invocation.words (invocation : Invocation) : List String :=
  optionWords invocation.options ++ invocation.command.name.text ::
    (optionWords invocation.command.options ++ "--" :: invocation.command.operands)

/-! ## Reading options -/

/-- No option has an equals sign in its name. -/
theorem Flag.equals_not_mem_long (flag : Flag) : '=' ∉ flag.long.toList := by
  cases flag <;> decide

theorem Flag.long_ne_nil (flag : Flag) : flag.long.toList ≠ [] := by
  cases flag <;> decide

theorem Flag.long_injective : Function.Injective Flag.long := by
  intro flag other h
  cases flag <;> cases other <;> first | rfl | (revert h; decide)

namespace Usage

/-- A long option is split where its value begins. -/
theorem splitLong_word (flag : Flag) (value? : Option String) :
    splitLong (flag.long.toList ++ ((value?.map ("=" ++ ·)).getD "").toList) = (flag.long, value?) := by
  have hname : ∀ c ∈ flag.long.toList, (c != '=') = true := by
    intro c hc
    rw [bne_iff_ne]
    rintro rfl
    exact flag.equals_not_mem_long hc
  rw [splitLong, List.takeWhile_append_of_pos hname, List.dropWhile_append_of_pos hname]
  cases value? with
  | none =>
    show (String.ofList (flag.long.toList ++ []), none) = _
    rw [List.append_nil, String.ofList_toList]
  | some value =>
    have hvalue : (((some value).map ("=" ++ ·)).getD "").toList = '=' :: value.toList := String.toList_append
    rw [hvalue]
    show (String.ofList (flag.long.toList ++ []), some (String.ofList value.toList)) = _
    rw [List.append_nil, String.ofList_toList, String.ofList_toList]

theorem Word.ofArgument_word (flag : Flag) (value? : Option String) :
    Word.ofArgument (flag.word value?) = .long flag.long value? := by
  have hchars : (flag.word value?).toList =
      '-' :: '-' :: (flag.long.toList ++ ((value?.map ("=" ++ ·)).getD "").toList) := by
    rw [Flag.word, String.toList_append, String.toList_append]
    rfl
  -- Two hyphens alone are no option, but every option has a name behind them.
  obtain ⟨c, more, htext⟩ := List.exists_cons_of_ne_nil
    (List.append_ne_nil_of_left_ne_nil flag.long_ne_nil ((value?.map ("=" ++ ·)).getD "").toList)
  rw [Word.ofArgument, hchars, htext]
  show Word.long (splitLong (c :: more)).1 (splitLong (c :: more)).2 = _
  rw [← htext, splitLong_word]

/-- An option that is taken when it is asked for: the command line knows it, it is no call for help, it has a value if
    it takes one, and it accepts the value. -/
structure Fits (level : Level) (flag : Flag) (value? : Option String) : Prop where
  known : flag ∈ level.flags
  not_help : flag ≠ .help
  value : flag.takesValue = value?.isSome
  accepted : flag.accepts value? = true

section Scan

variable {level : Level} {usage : Usage} {flag : Flag} {value? : Option String}

theorem find?_long (h : flag ∈ level.flags) : level.flags.find? (fun f => f.long = flag.long) = some flag := by
  have hthere : (level.flags.find? fun f => f.long = flag.long).isSome = true :=
    List.find?_isSome.2 ⟨flag, h, by simp⟩
  obtain ⟨found, hfound⟩ := Option.isSome_iff_exists.1 hthere
  have hsame : found.long = flag.long := by simpa using List.find?_some hfound
  rw [hfound, Flag.long_injective hsame]

/-- An option that fits is taken if it was not taken before. -/
theorem addOption_of_fits (hfits : Fits level flag value?) (hnew : flag ∉ usage.given.map (·.1)) :
    usage.addOption flag value? = .ok { usage with given := (flag, value?) :: usage.given } := by
  have hhas : usage.has flag = false := by
    rw [has, List.any_eq_false]
    intro g hg hsame
    exact hnew (List.mem_map.2 ⟨g, hg, of_decide_eq_true hsame⟩)
  rw [addOption, if_neg hfits.not_help, hhas, hfits.accepted]
  rfl

theorem scan_word {arguments : List String} (hfits : Fits level flag value?) (hnew : flag ∉ usage.given.map (·.1)) :
    scan level usage none (flag.word value? :: arguments) =
      scan level { usage with given := (flag, value?) :: usage.given } none arguments := by
  conv => lhs; unfold scan
  rw [Word.ofArgument_word]
  dsimp only
  rw [find?_long hfits.known]
  dsimp only
  have hadd := addOption_of_fits hfits hnew
  rw [hfits.value]
  cases value? with
  | none =>
    show (do let usage ← usage.addOption flag none; scan level usage none arguments) = _
    rw [hadd]
    rfl
  | some value =>
    show (do let usage ← usage.addOption flag (some value); scan level usage none arguments) = _
    rw [hadd]
    rfl

/-- **Options written out are taken,** one after the other, if none is there already or comes twice. -/
theorem scan_words {given : List (Flag × Option String)} {arguments : List String}
    (hfits : ∀ g ∈ given, Fits level g.1 g.2) (hnew : ((usage.given ++ given).map (·.1)).Nodup) :
    scan level usage none (optionWords given ++ arguments) =
      scan level { usage with given := given.reverse ++ usage.given } none arguments := by
  induction given generalizing usage with
  | nil => rfl
  | cons g given ih =>
    have hfirst : g.1 ∉ usage.given.map (·.1) := by
      intro hmem
      rw [List.map_append, List.nodup_append] at hnew
      exact hnew.2.2 g.1 hmem g.1 List.mem_cons_self rfl
    have hrest : (((g :: usage.given) ++ given).map (·.1)).Nodup := by
      rw [List.cons_append]
      exact (List.perm_middle.map _).nodup_iff.1 hnew
    calc scan level usage none (g.1.word g.2 :: (optionWords given ++ arguments))
      _ = scan level { usage with given := g :: usage.given } none (optionWords given ++ arguments) :=
        scan_word (hfits g List.mem_cons_self) hfirst
      _ = scan level { usage with given := given.reverse ++ g :: usage.given } none arguments :=
        ih (fun other hother => hfits other (List.mem_cons_of_mem _ hother)) hrest
      _ = scan level { usage with given := (g :: given).reverse ++ usage.given } none arguments := by
        rw [List.reverse_cons, List.append_assoc]
        rfl

/-- At the start of a level only the options themselves count. -/
theorem scan_words_start {given : List (Flag × Option String)} {arguments : List String}
    (hfits : ∀ g ∈ given, Fits level g.1 g.2) (hdistinct : (given.map (·.1)).Nodup) :
    scan level {} none (optionWords given ++ arguments) =
      scan level { given := given.reverse } none arguments := by
  have hnew : ((({} : Usage).given ++ given).map (·.1)).Nodup := hdistinct
  rw [scan_words hfits hnew, List.append_nil]

/-- A name in front of which there are options only is the command. -/
theorem scan_name (name : Command.Name) {arguments : List String} (hlevel : level.operands = .command) :
    scan level usage none (name.text :: arguments) =
      .ok { usage with operands := [name.text], behind := arguments } := by
  have hplain : Word.ofArgument name.text = .plain := by cases name <;> rfl
  unfold scan
  rw [hplain]
  exact if_pos hlevel

/-- Behind two hyphens everything is an operand. -/
theorem scan_separator {arguments : List String} (hlevel : level.operands ≠ .command) :
    scan level usage none ("--" :: arguments) = arguments.foldlM (addOperand level.operands) usage := by
  have hseparator : Word.ofArgument "--" = .separator := rfl
  unfold scan
  rw [hseparator]
  exact if_neg hlevel

/-- Any number of patterns is taken. -/
theorem foldlM_addOperand_patterns (patterns : List String) :
    patterns.foldlM (addOperand .patterns) usage =
      .ok { usage with operands := patterns.reverse ++ usage.operands } := by
  induction patterns generalizing usage with
  | nil => rfl
  | cons pattern patterns ih =>
    have hadd : addOperand .patterns usage pattern = .ok { usage with operands := pattern :: usage.operands } :=
      if_neg fun h => nomatch h.1
    rw [List.foldlM_cons, hadd]
    show patterns.foldlM (addOperand .patterns) { usage with operands := pattern :: usage.operands } = _
    rw [ih, List.reverse_cons, List.append_assoc]
    rfl

/-- One path is taken, unless it is empty. -/
theorem foldlM_addOperand_path (path : String) (hnone : usage.operands = []) :
    [path].foldlM (addOperand .path) usage =
      if path = "" then .error .misuse else .ok { usage with operands := [path] } := by
  rw [List.foldlM_cons, addOperand, hnone]
  by_cases hempty : path = ""
  · rw [if_pos hempty, if_pos ⟨rfl, .inl hempty⟩]
    rfl
  · rw [if_neg hempty, if_neg fun h => h.2.elim hempty fun h => h rfl]
    rfl

end Scan

end Usage

/-! ## Reading lines -/

theorem Command.formatOption_fits {level : Level} {format? : Option OutputFormat} (hknown : .format ∈ level.flags)
    {g : Flag × Option String} (hg : g ∈ Command.formatOption format?) : Usage.Fits level g.1 g.2 := by
  cases format? with
  | none => cases hg
  | some format =>
    rw [List.mem_singleton.1 hg]
    refine ⟨hknown, ?_, rfl, ?_⟩
    · intro h
      cases h
    · cases format <;> rfl

/-- A command takes its own options. -/
theorem Command.options_fit (command : Command) : ∀ g ∈ command.options, Usage.Fits command.name.level g.1 g.2 := by
  intro g hg
  cases command with
  | resolve path format? stats =>
    have hformat : .format ∈ Name.resolve.level.flags := by decide
    have hstats : .stats ∈ Name.resolve.level.flags := by decide
    rcases List.mem_append.1 hg with hg | hg
    · exact formatOption_fits hformat hg
    · cases stats with
      | false => cases hg
      | true =>
        rw [List.mem_singleton.1 hg]
        exact ⟨hstats, nofun, rfl, rfl⟩
  | print path format? =>
    have hformat : .format ∈ Name.print.level.flags := by decide
    exact formatOption_fits hformat hg
  | check patterns => cases hg

/-- The options that all commands share are taken in front of a command, if the settings file has a name. -/
theorem Invocation.options_fit {invocation : Invocation} (hconfig : invocation.config? ≠ some "") :
    ∀ g ∈ invocation.options, Usage.Fits ⟨Flag.common, .command⟩ g.1 g.2 := by
  intro g hg
  have hconfigKnown : .config ∈ Flag.common := by decide
  have hverboseKnown : .verbose ∈ Flag.common := by decide
  have hcolorKnown : .noColor ∈ Flag.common := by decide
  rw [options, List.mem_append, List.mem_append] at hg
  rcases hg with (hg | hg) | hg
  · cases hpath : invocation.config? with
    | none =>
      rw [hpath] at hg
      cases hg
    | some path =>
      rw [hpath] at hg hconfig
      rw [List.mem_singleton.1 hg]
      have hnamed : path ≠ "" := fun h => hconfig (congrArg some h)
      exact ⟨hconfigKnown, nofun, rfl, bne_iff_ne.2 hnamed⟩
  · split at hg
    · rw [List.mem_singleton.1 hg]
      exact ⟨hverboseKnown, nofun, rfl, rfl⟩
    · cases hg
  · split at hg
    · rw [List.mem_singleton.1 hg]
      exact ⟨hcolorKnown, nofun, rfl, rfl⟩
    · cases hg

/-- What stands in front of the command of a line written out. -/
theorem scan_outer {invocation : Invocation} (hconfig : invocation.config? ≠ some "") :
    Usage.scan ⟨Flag.common, .command⟩ {} none invocation.words = .ok
      { given := invocation.options.reverse
        operands := [invocation.command.name.text]
        behind := optionWords invocation.command.options ++ "--" :: invocation.command.operands } := by
  have hdistinct : (invocation.options.map fun g => g.1).Nodup := by
    obtain ⟨command, config?, verbose, noColor⟩ := invocation
    cases config? <;> cases verbose <;> cases noColor <;> simp [Invocation.options]
  rw [Invocation.words, Usage.scan_words_start (Invocation.options_fit hconfig) hdistinct, Usage.scan_name _ rfl]

/-- What stands behind the command of a line written out. -/
theorem scan_inner (command : Command) :
    Usage.scan command.name.level {} none (optionWords command.options ++ "--" :: command.operands) =
      command.operands.foldlM (Usage.addOperand command.name.level.operands) { given := command.options.reverse } := by
  have hdistinct : (command.options.map fun g => g.1).Nodup := by
    cases command with
    | resolve path format? stats => cases format? <;> cases stats <;> simp [Command.options, Command.formatOption]
    | print path format? => cases format? <;> simp [Command.options, Command.formatOption]
    | check patterns => simp [Command.options]
  have hlevel : command.name.level.operands ≠ .command := by
    cases command <;> nofun
  rw [Usage.scan_words_start command.options_fit hdistinct, Usage.scan_separator hlevel]

/-- All operands of a command that has some are taken. -/
theorem foldlM_operands {command : Command} (given : List (Flag × Option String))
    (hoperands : command.hasOperands = true) :
    command.operands.foldlM (Usage.addOperand command.name.level.operands) { given } =
      .ok { given, operands := command.operands.reverse } := by
  cases command with
  | resolve path format? stats => exact (Usage.foldlM_addOperand_path path rfl).trans (if_neg (bne_iff_ne.1 hoperands))
  | print path format? => exact (Usage.foldlM_addOperand_path path rfl).trans (if_neg (bne_iff_ne.1 hoperands))
  | check patterns =>
    refine (Usage.foldlM_addOperand_patterns patterns).trans ?_
    rw [List.append_nil]
    rfl

/-- The shared options are read off what was taken in front of the command. -/
theorem read_options (invocation : Invocation) (operands behind : List String) :
    let usage : Usage := { given := invocation.options.reverse, operands, behind }
    usage.value? .config = invocation.config? ∧ usage.has .verbose = invocation.verbose ∧
      usage.has .noColor = invocation.noColor := by
  obtain ⟨command, config?, verbose, noColor⟩ := invocation
  cases config? <;> cases verbose <;> cases noColor <;> exact ⟨rfl, rfl, rfl⟩

/-- A command is read off what was taken behind its name, and no shared option is. -/
theorem read_command {command : Command} (hoperands : command.hasOperands = true) :
    let usage : Usage := { given := command.options.reverse, operands := command.operands.reverse }
    command.name.command usage = .ok command ∧ usage.value? .config = none ∧ usage.has .verbose = false ∧
      usage.has .noColor = false := by
  cases command with
  | resolve path format? stats =>
    cases format? with
    | none => cases stats <;> exact ⟨rfl, rfl, rfl, rfl⟩
    | some format => cases format <;> cases stats <;> exact ⟨rfl, rfl, rfl, rfl⟩
  | print path format? =>
    cases format? with
    | none => exact ⟨rfl, rfl, rfl, rfl⟩
    | some format => cases format <;> exact ⟨rfl, rfl, rfl, rfl⟩
  | check patterns =>
    refine ⟨?_, rfl, rfl, rfl⟩
    cases hpatterns : patterns.reverse with
    | nil =>
      rw [Command.hasOperands, List.reverse_eq_nil_iff.1 hpatterns] at hoperands
      cases hoperands
    | cons last others =>
      show Command.Name.check.command { given := [], operands := patterns.reverse } = _
      rw [hpatterns]
      show Except.ok (Command.check (last :: others).reverse) = _
      rw [← hpatterns, List.reverse_reverse]

/-- What is behind the name of a command decides. -/
theorem ofArguments_words_eq {invocation : Invocation} (hconfig : invocation.config? ≠ some "") :
    Invocation.ofArguments invocation.words = (do
      let command := invocation.command
      let inner ← command.operands.foldlM (Usage.addOperand command.name.level.operands)
        { given := command.options.reverse }
      return {
        command := ← command.name.command inner
        config? := inner.value? .config <|> invocation.config?
        verbose := invocation.verbose || inner.has .verbose
        noColor := invocation.noColor || inner.has .noColor }) := by
  obtain ⟨hpath, hverbose, hcolor⟩ := read_options invocation [invocation.command.name.text]
    (optionWords invocation.command.options ++ "--" :: invocation.command.operands)
  rw [Invocation.ofArguments, scan_outer hconfig]
  show (if invocation.command.name.text = helpName then _ else _) = _
  rw [if_neg invocation.command.name.text_ne_help]
  dsimp only [bind, Except.bind]
  rw [invocation.command.name.ofText?_text]
  dsimp only
  rw [scan_inner, hpath, hverbose, hcolor]

/-- **A command line asks for whatever can be carried out,** and for nothing if there is nothing to carry it out on. -/
theorem ofArguments_words {invocation : Invocation} (hconfig : invocation.config? ≠ some "") :
    Invocation.ofArguments invocation.words =
      if invocation.command.hasOperands then .ok invocation else .error .misuse := by
  rw [ofArguments_words_eq hconfig]
  dsimp only
  cases hoperands : invocation.command.hasOperands with
  | true =>
    obtain ⟨hcommand, hpath, hverbose, hcolor⟩ := read_command hoperands
    rw [foldlM_operands _ hoperands]
    dsimp only [bind, Except.bind]
    rw [hcommand, hpath, hverbose, hcolor, Bool.or_false, Bool.or_false]
    rfl
  | false =>
    cases hcommand : invocation.command with
    | resolve path format? stats =>
      rw [hcommand] at hoperands
      have hempty : path = "" := by simpa [Command.hasOperands] using hoperands
      rw [Command.operands, hempty]
      rfl
    | print path format? =>
      rw [hcommand] at hoperands
      have hempty : path = "" := by simpa [Command.hasOperands] using hoperands
      rw [Command.operands, hempty]
      rfl
    | check patterns =>
      rw [hcommand] at hoperands
      have hempty : patterns = [] := by simpa [Command.hasOperands] using hoperands
      rw [hempty]
      rfl

end StyleTree
