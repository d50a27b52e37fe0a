import StyleTree.Settings.Basic

/-!
# `StyleTree.Command.Arguments` — reading the command line

A command line is a command with its operands and options; three options may also stand before the command.
Options are written long or short (`Flag`); a value follows its option as the next argument, behind an equals
sign or, for a short option, directly behind the letter; short options may share one hyphen. Behind two hyphens
everything is an operand. Arguments are taken from left to right, and the first that cannot be taken, or that
asks for help, decides.

What may stand in front of the command and what may stand behind its name differ only in a `Level`. So both
stretches of the line are read by the same function, `Usage.scan`, and `Invocation.ofArguments` puts them
together.
-/

namespace StyleTree

/-- What to do. -/
inductive Command where
  /-- Resolve a tree and print it, with the counts of the run if asked for. -/
  | resolve (path : String) (format? : Option OutputFormat) (stats : Bool)
  /-- Print a tree as it was read. -/
  | print (path : String) (format? : Option OutputFormat)
  /-- Resolve many trees and tell which of them fail. -/
  | check (patterns : List String)
deriving DecidableEq, Repr

/-- A command with the options that all commands share. -/
structure Invocation where
  /-- What to do. -/
  command : Command
  /-- The settings file asked for. -/
  config? : Option String := none
  /-- Whether to log in detail whatever the settings say. -/
  verbose : Bool := false
  /-- Whether to leave out colours whatever the settings say. -/
  noColor : Bool := false
deriving DecidableEq, Repr

/-- Why a command line asks for nothing that can be done. -/
inductive UsageError where
  /-- It asks for help. -/
  | help
  /-- It is no command line of this program. -/
  | misuse
deriving DecidableEq, Repr

/-! ## Options -/

/-- The options there are. -/
inductive Flag where
  /-- The settings file to use. -/
  | config
  /-- Log in detail. -/
  | verbose
  /-- Leave out colours. -/
  | noColor
  /-- How to write trees. -/
  | format
  /-- Print what was counted. -/
  | stats
  /-- Print help. -/
  | help
deriving DecidableEq, Repr

namespace Flag

/-- The long spelling of an option. -/
def long : Flag → String
  | .config => "config"
  | .verbose => "verbose"
  | .noColor => "no-color"
  | .format => "format"
  | .stats => "stats"
  | .help => "help"

/-- The letter of an option, if it has one. -/
def short? : Flag → Option Char
  | .config => some 'c'
  | .verbose => some 'v'
  | .noColor => none
  | .format => some 'f'
  | .stats => some 's'
  | .help => some 'h'

/-- Whether the option takes a value. -/
def takesValue : Flag → Bool
  | .config | .format => true
  | .verbose | .noColor | .stats | .help => false

/-- Whether the option accepts the value: a settings file has a name, and only the formats there are can be
    asked for. -/
def accepts : Flag → Option String → Bool
  | .config, some path => path != ""
  | .format, some name => (OutputFormat.ofName? name).isSome
  | _, _ => true

/-- The options that every level knows. -/
def common : List Flag := [.config, .verbose, .noColor, .help]

end Flag

/-! ## One level -/

/-- What the operands of a level are. -/
inductive Operands where
  /-- The first one is a command, and what stands behind it is another level. -/
  | command
  /-- There is one, and it is a path. -/
  | path
  /-- There are any number of patterns. -/
  | patterns
deriving DecidableEq, Repr

/-- What may stand at one level of a command line. -/
structure Level where
  /-- The options. -/
  flags : List Flag
  /-- The operands. -/
  operands : Operands

/-- What stands at one level of a command line. -/
structure Usage where
  /-- The options with their values. -/
  given : List (Flag × Option String) := []
  /-- The operands, the last one first. -/
  operands : List String := []
  /-- What stands behind the first operand, if that operand is a command. -/
  behind : List String := []

namespace Usage

/-- Whether an option is given. -/
def has (usage : Usage) (flag : Flag) : Bool :=
  usage.given.any fun g => g.1 = flag

/-- The value of an option. -/
def value? (usage : Usage) (flag : Flag) : Option String :=
  ((usage.given.find? fun g => g.1 = flag).map (·.2)).join

/-- One more option. No option may be given twice. -/
def addOption (usage : Usage) (flag : Flag) (value? : Option String) : Except UsageError Usage :=
  if flag = .help then .error .help
  else if usage.has flag || !flag.accepts value? then .error .misuse
  else .ok { usage with given := (flag, value?) :: usage.given }

/-- One more operand. -/
def addOperand (operands : Operands) (usage : Usage) (operand : String) : Except UsageError Usage :=
  if operands = .path ∧ (operand = "" ∨ usage.operands ≠ []) then .error .misuse
  else .ok { usage with operands := operand :: usage.operands }

/-- Adds the options that share one hyphen; also returns the last of them if its value has yet to come. -/
def addCluster (known : List Flag) (usage : Usage) :
    List Char → Except UsageError (Usage × Option Flag)
  | [] => .ok (usage, none)
  | letter :: letters =>
    match known.find? fun flag => flag.short? = some letter with
    | none => .error .misuse
    | some flag =>
      if flag.takesValue then
        match letters with
        | [] => .ok (usage, some flag)
        | '=' :: value => (usage.addOption flag (some (String.ofList value))).map (·, none)
        | value => (usage.addOption flag (some (String.ofList value))).map (·, none)
      else
        match usage.addOption flag none with
        | .error error => .error error
        | .ok usage => addCluster known usage letters

/-- A long option, split at the first equals sign. -/
def splitLong (text : List Char) : String × Option String :=
  (String.ofList (text.takeWhile (· != '=')),
    match text.dropWhile (· != '=') with
    | [] => none
    | _ :: value => some (String.ofList value))

/-- What an argument is, outside the operands behind two hyphens. -/
inductive Word where
  /-- Two hyphens. -/
  | separator
  /-- A long option. -/
  | long (name : String) (value? : Option String)
  /-- Short options. -/
  | short (letters : List Char)
  /-- An operand, or the value of the option before it. -/
  | plain

/-- What an argument is. A single hyphen is an operand. -/
def Word.ofArgument (argument : String) : Word :=
  match argument.toList with
  | ['-', '-'] => .separator
  | '-' :: '-' :: text => .long (splitLong text).1 (splitLong text).2
  | ['-'] => .plain
  | '-' :: letters => .short letters
  | _ => .plain

/-- Reads on at one level, where `waiting` is an option whose value comes next. In front of a command the level
    ends with the first operand. -/
def scan (level : Level) (usage : Usage) (waiting : Option Flag) :
    List String → Except UsageError Usage
  | [] => if waiting.isSome then .error .misuse else .ok usage
  | argument :: arguments =>
    match Word.ofArgument argument, waiting with
    | .plain, some flag => do
      let usage ← usage.addOption flag (some argument)
      scan level usage none arguments
    | .plain, none =>
      if level.operands = .command then
        .ok { usage with operands := [argument], behind := arguments }
      else do
        let usage ← usage.addOperand level.operands argument
        scan level usage none arguments
    | _, some _ => .error .misuse
    | .separator, none =>
      if level.operands = .command then .error .misuse
      else arguments.foldlM (addOperand level.operands) usage
    | .long name value?, none =>
      match level.flags.find? fun flag => flag.long = name with
      | none => .error .misuse
      | some flag =>
        match flag.takesValue, value? with
        | true, none => scan level usage (some flag) arguments
        | false, some _ => .error .misuse
        | _, value? => do
          let usage ← usage.addOption flag value?
          scan level usage none arguments
    | .short letters, none => do
      let (usage, waiting) ← usage.addCluster level.flags letters
      scan level usage waiting arguments

/-- The format asked for, if one is. -/
def format? (usage : Usage) : Option OutputFormat :=
  (usage.value? .format).bind OutputFormat.ofName?

end Usage

/-! ## Commands -/

/-- The name of a command. -/
inductive Command.Name where
  /-- Resolve and print. -/
  | resolve
  /-- Print. -/
  | print
  /-- Resolve and report. -/
  | check
deriving DecidableEq, Repr

namespace Command.Name

/-- The command of the given name; each has two. -/
def ofText? : String → Option Command.Name
  | "resolve" | "run" => some .resolve
  | "show" | "cat" => some .print
  | "check" | "lint" => some .check
  | _ => none

/-- What may stand behind the command. -/
def level : Command.Name → Level
  | .resolve => ⟨Flag.common ++ [.format, .stats], .path⟩
  | .print => ⟨Flag.common ++ [.format], .path⟩
  | .check => ⟨Flag.common, .patterns⟩

/-- The command with what stands behind it. -/
def command (name : Command.Name) (usage : Usage) : Except UsageError Command :=
  match name, usage.operands with
  | _, [] => .error .misuse
  | .resolve, path :: _ => .ok (.resolve path usage.format? (usage.has .stats))
  | .print, path :: _ => .ok (.print path usage.format?)
  | .check, patterns => .ok (.check patterns.reverse)

end Command.Name

/-! ## The line -/

/-- The name by which help is asked for in place of a command. -/
def helpName : String := "help"

/-- What is asked for by the word for help and the words behind it: help, if these name at most one command. -/
def helpError : List String → UsageError
  | [] => .help
  | [name] => if name = helpName ∨ (Command.Name.ofText? name).isSome then .help else .misuse
  | _ => .misuse

/-- Reads a command line. A settings file named behind the command wins over one named before it. -/
def Invocation.ofArguments (arguments : List String) : Except UsageError Invocation := do
  let outer ← Usage.scan ⟨Flag.common, .command⟩ {} none arguments
  match outer.operands with
  | [] => throw .misuse
  | text :: _ =>
    if text = helpName then throw (helpError outer.behind)
    match Command.Name.ofText? text with
    | none => throw .misuse
    | some name =>
      let inner ← Usage.scan name.level {} none outer.behind
      return {
        command := ← name.command inner
        config? := inner.value? .config <|> outer.value? .config
        verbose := outer.has .verbose || inner.has .verbose
        noColor := outer.has .noColor || inner.has .noColor }

end StyleTree
