import StyleTree.Command.Arguments
import StyleTree.Files.Expand
import StyleTree.Inherit.Resolve
import StyleTree.Node.OfSExp
import StyleTree.Node.Walk
import StyleTree.Settings.Load

/-!
# `StyleTree.Command.Run` — carrying out commands

A command yields an exit code and two texts, one for standard output and one for standard error. It reads
files through the operations it is given and does nothing else, so a run is a value: `run` goes from the
arguments to the `Outcome`. What a run logs on standard error is no part of that value, since a line of the log
tells the time of day; all that is kept of the log is that its level has to exist.

A command that fails says why (`CommandError.report`): a message, what lies behind it, and the nodes that the
failure came through. A terminal shows text in a style between two escape sequences (`paint`). The sequence
that ends a style ends every style, so where the text holds one itself, the style is begun again behind it.
-/

namespace StyleTree

/-! ## Coloured messages -/

/-- A style of text on a terminal. -/
inductive Style where
  /-- Heavy letters. -/
  | bold
  /-- Faint letters. -/
  | dimmed
  /-- A line under the text. -/
  | underline
  /-- Red letters. -/
  | red
  /-- Green letters. -/
  | green
  /-- Yellow letters. -/
  | yellow
  /-- Cyan letters. -/
  | cyan
deriving DecidableEq, Repr

/-- The number of a style. -/
def Style.code : Style → String
  | .bold => "1"
  | .dimmed => "2"
  | .underline => "4"
  | .red => "31"
  | .green => "32"
  | .yellow => "33"
  | .cyan => "36"

/-- The sequence that ends all styles. -/
def resetSequence : String := "\x1b[0m"

/-- The sequence that begins the styles. -/
def styleSequence (styles : List Style) : String :=
  "\x1b[" ++ ";".intercalate (styles.map Style.code) ++ "m"

/-- A text in the given styles, if colours are on. -/
def paint (colored : Bool) (styles : List Style) (text : String) : String :=
  if colored then
    let begin := styleSequence styles
    begin ++ (resetSequence ++ begin).intercalate (text.splitOn resetSequence) ++ resetSequence
  else text

/-! ## Failures -/

/-- Why a command fails. -/
inductive CommandError where
  /-- A file cannot be read. -/
  | unreadable (path : String) (failure : ReadFailure)
  /-- A file holds no tree. -/
  | notATree (path : String) (error : ReadError)
  /-- The tree in a file cannot be resolved. -/
  | unresolvable (path : String) (failure : Failure)
  /-- A tree cannot be resolved, and its file is named elsewhere. -/
  | resolution (failure : Failure)
  /-- An operand is no pattern. -/
  | invalidPattern (pattern : InvalidPattern)
  /-- Some of the files checked failed. -/
  | filesFailed (failed total : Nat)
deriving DecidableEq, Repr

/-- What is told about a failure. -/
structure Report where
  /-- What failed. -/
  message : String
  /-- What lies behind it, from the outside in. -/
  causes : List String := []
  /-- The nodes that the failure came through, the innermost first. -/
  frames : List Location := []
deriving DecidableEq, Repr

/-- What is told about a failed command. An error in the spelling of a token is told twice: as the reader
    reports it and as it is. -/
def CommandError.report : CommandError → Report
  | .unreadable path failure => { message := s!"Failed to read {path}", causes := [failure.message] }
  | .notATree path error =>
    { message := s!"Invalid tree notation in {path}"
      causes := error.message :: match error with
        | .lex error => [error.message]
        | _ => [] }
  | .unresolvable path failure =>
    { message := s!"Failed to resolve @inherit in {path}"
      causes := [failure.message]
      frames := failure.backtrace }
  | .resolution failure => { message := failure.message, frames := failure.backtrace }
  | .invalidPattern pattern =>
    { message := s!"Invalid pattern '{pattern.text}'", causes := [pattern.error.message] }
  | .filesFailed failed total => { message := s!"{failed} of {total} files failed" }

/-- What is told about settings that cannot be used. -/
def SettingsError.report (error : SettingsError) : Report :=
  { message := error.message, causes := error.causes }

/-- Lines of text, each with its line end. -/
def textOfLines (lines : List String) : String :=
  String.join (lines.map (· ++ "\n"))

/-- A report as lines of text. The context says what was being done. -/
def Report.lines (report : Report) (colored : Bool) (context : String) : List String :=
  let paint := paint colored
  [paint [.bold, .red] "Error:" ++ " " ++ context, "  " ++ paint [.red] report.message]
    ++ report.causes.map (fun cause =>
      "  " ++ paint [.dimmed] "Caused by:" ++ " " ++ paint [.dimmed] cause)
    ++ report.frames.map (fun frame =>
      "    " ++ paint [.dimmed] "from" ++ " " ++ paint [.cyan] (toString frame))

/-! ## Outcomes -/

/-- What a run of the program leaves behind, apart from its log. -/
structure Outcome where
  /-- The exit code. -/
  code : Nat
  /-- The text on standard output. -/
  output : String
  /-- The text on standard error without the lines that are logged there, all of which come before the counts of a
      run. -/
  errors : String
deriving DecidableEq, Repr

/-- The outcome of a failure before or in a command, behind what was already written. -/
def Outcome.ofReport (colored : Bool) (context : String) (report : Report)
    (output : String := "") (errors : String := "") : Outcome :=
  ⟨1, output, errors ++ textOfLines (report.lines colored context)⟩

/-- The context of any failure of a command itself. -/
def commandContext : String := "Command failed"

/-- The outcome of a failed command. -/
def Outcome.ofError (colored : Bool) (error : CommandError) : Outcome :=
  .ofReport colored commandContext error.report

/-! ## Trees -/

variable {m : Type → Type} [Monad m]

/-- Whether the path stands for standard input. -/
def isInputPath (path : String) : Bool :=
  pathParts path = [.name "-"]

/-- The tree in a file, or on standard input. Nodes that name no file come from the path given. -/
def loadTree (files : Files m) (path : String) : m (Except CommandError Node) := do
  let source ← if isInputPath path then files.input else files.read path
  let file := if isInputPath path then Location.anonymousFile else path
  match source with
  | .error failure => return .error (.unreadable path failure)
  | .ok text =>
    match Node.parse text file with
    | .error error => return .error (.notATree path error)
    | .ok n => return .ok n

/-! ## Commands -/

/-- The counts of a run as lines of text. -/
def Stats.lines (stats : Stats) (colored : Bool) : List String :=
  let paint := paint colored
  ["", paint [.bold, .underline] "Inherit statistics",
    "  " ++ paint [.bold] "Scopes" ++ s!": {stats.scopes}",
    "  " ++ paint [.bold] "Markers spliced" ++ s!": {stats.markersSpliced}",
    "  " ++ paint [.bold] "Nodes spliced" ++ s!": {stats.nodesSpliced}",
    "  " ++ paint [.bold] "Rules merged" ++ s!": {stats.rulesMerged}"]

/-- Resolves a tree and writes it, and the counts if asked for. -/
def resolveTree (files : Files m) (settings : Settings) (colored : Bool) (path : String)
    (format : OutputFormat) (showStats : Bool) : m Outcome := do
  match ← loadTree files path with
  | .error error => return .ofError colored error
  | .ok n =>
    match n.resolved with
    | (.error failure, _) => return .ofError colored (.unresolvable path failure)
    | (.ok n, stats) =>
      return {
        code := 0
        output := settings.render format n ++ "\n"
        errors := if showStats then textOfLines (stats.lines colored) else "" }

/-- Writes a tree as it was read. -/
def printTree (files : Files m) (settings : Settings) (colored : Bool) (path : String)
    (format : OutputFormat) : m Outcome := do
  match ← loadTree files path with
  | .error error => return .ofError colored error
  | .ok n => return { code := 0, output := settings.render format n ++ "\n", errors := "" }

/-- Resolves the tree in a file; returns the number of markers in it. -/
def checkFile (files : Files m) (path : String) : m (Except CommandError Nat) := do
  match ← loadTree files path with
  | .error error => return .error error
  | .ok n =>
    match n.resolved with
    | (.error failure, _) => return .error (.resolution failure)
    | (.ok _, _) => return .ok n.countMarkers

/-- The line on standard output about a file that was checked. -/
def verdictLine (colored : Bool) (path : String) : Except CommandError Nat → String
  | .ok markers => paint colored [.bold, .green] "ok" ++ s!" {path} ({markers} @inherit)"
  | .error _ => paint colored [.bold, .red] "FAILED" ++ s!" {path}"

/-- The lines on standard error about a file that was checked. -/
def verdictErrors (colored : Bool) (path : String) : Except CommandError Nat → List String
  | .ok _ => []
  | .error error => error.report.lines colored path

/-- Resolves the tree in each file that the patterns name and tells which of them fail. -/
def checkFiles (files : Files m) (colored : Bool) (patterns : List String) : m Outcome := do
  match ← expandPatterns files patterns with
  | .error pattern => return .ofError colored (.invalidPattern pattern)
  | .ok paths =>
    let verdicts ← paths.mapM (checkFile files)
    let checked := paths.zip verdicts
    let failed := verdicts.countP fun verdict => !verdict.isOk
    let output := textOfLines (
      checked.map (fun c => verdictLine colored c.1 c.2)
        ++ ["", s!"{paths.length} checked, {failed} failed"])
    let errors := textOfLines (checked.flatMap fun c => verdictErrors colored c.1 c.2)
    if failed = 0 then return ⟨0, output, errors⟩
    else
      let error := CommandError.filesFailed failed paths.length
      return .ofReport colored commandContext error.report output errors

/-! ## The program -/

/-- How the program is used. -/
def usageText : String := textOfLines [
  "Resolve @inherit markers in stylesheet trees",
  "",
  "Usage: styletree [OPTIONS] <COMMAND>",
  "",
  "Commands:",
  "  resolve, run <PATH>       Resolve a tree and print it (-f sexp|json, -s for statistics)",
  "  show, cat <PATH>          Print a tree as it was read (-f sexp|json)",
  "  check, lint <PATTERN>...  Resolve many trees and report which of them fail",
  "",
  "Options:",
  "  -c, --config <FILE>  Use this settings file",
  "  -v, --verbose        Log in detail whatever the settings say",
  "      --no-color       Leave out colours",
  "  -h, --help           Print this help"]

/-- Carries out a command. -/
def Command.run (files : Files m) (settings : Settings) (colored : Bool) : Command → m Outcome
  | .resolve path format? stats =>
    resolveTree files settings colored path (format?.getD settings.format) stats
  | .print path format? => printTree files settings colored path (format?.getD settings.format)
  | .check patterns => checkFiles files colored patterns

/-- Runs the program. `terminal` says whether messages may be coloured at all; the settings and the command
    line can only refuse colours. A log level has to exist unless the command line asks for another one. -/
def run (files : Files m) (terminal : Bool) (arguments : List String) : m Outcome := do
  match Invocation.ofArguments arguments with
  | .error .help => return ⟨0, usageText, ""⟩
  | .error .misuse => return ⟨2, "", usageText⟩
  | .ok invocation =>
    match ← Settings.load files invocation.config? with
    | .error error =>
      -- Without settings nothing has refused colours yet.
      return .ofReport terminal "Failed to load configuration" error.report
    | .ok settings =>
      let colored := terminal && settings.color && !invocation.noColor
      match if invocation.verbose then .ok .debug else settings.level with
      | .error error => return .ofReport colored "Failed to initialize logging" error.report
      | .ok _ => invocation.command.run files settings colored

end StyleTree
