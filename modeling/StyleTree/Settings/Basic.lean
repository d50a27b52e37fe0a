import StyleTree.Node.Json
import StyleTree.Node.ToSExp

/-!
# `StyleTree.Settings.Basic` — how trees are shown

What a user can choose about the output of the commands, how the choices are written, and what holds if nothing
is chosen. A tree as text under some `Settings` is `Settings.render`.
-/

namespace StyleTree

/-- How a tree is written. -/
inductive OutputFormat where
  /-- In tree notation. -/
  | sexp
  /-- As JSON. -/
  | json
deriving DecidableEq, Repr

/-- The name of a format. -/
def OutputFormat.name : OutputFormat → String
  | .sexp => "sexp"
  | .json => "json"

/-- The format of the given name. -/
def OutputFormat.ofName? : String → Option OutputFormat
  | "sexp" => some .sexp
  | "json" => some .json
  | _ => none

/-- How much is logged, from least to most. -/
inductive LogLevel where
  /-- Failures only. -/
  | error
  /-- Also what is suspicious. -/
  | warn
  /-- Also what was done. -/
  | info
  /-- Also how it was done. -/
  | debug
  /-- Everything. -/
  | trace
deriving DecidableEq, Repr

/-- The name of a level. -/
def LogLevel.name : LogLevel → String
  | .error => "ERROR"
  | .warn => "WARN"
  | .info => "INFO"
  | .debug => "DEBUG"
  | .trace => "TRACE"

/-- The levels by number, the first one being one. -/
def LogLevel.all : List LogLevel := [.error, .warn, .info, .debug, .trace]

/-- The level that a text names: by its name in any case of letters, or by its number. -/
def LogLevel.ofText? (text : String) : Option LogLevel :=
  match unsigned? text.toList with
  | some (n + 1) => all[n]?
  | some 0 => none
  | none => all.find? fun level => level.name == text.map Char.toUpper

/-- What a user can choose. -/
structure Settings where
  /-- The width of each step of nesting in tree notation. -/
  indent : Nat := SExp.defaultIndent
  /-- How trees are written. -/
  format : OutputFormat := .sexp
  /-- Whether tree notation shows where nodes were declared. -/
  showLocations : Bool := true
  /-- How much is logged, as the user wrote it. -/
  logLevel : String := "warn"
  /-- Whether messages may be coloured. -/
  color : Bool := true
deriving DecidableEq, Repr

namespace Settings

/-- The log level chosen, if there is such a level. -/
def level? (settings : Settings) : Option LogLevel :=
  LogLevel.ofText? settings.logLevel

/-- A tree as text in the given format. -/
def render (settings : Settings) (format : OutputFormat) (n : Node) : String :=
  match format with
  | .sexp => n.print settings.indent settings.showLocations
  | .json => n.toJson.pretty

end Settings

end StyleTree
