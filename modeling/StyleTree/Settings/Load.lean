import StyleTree.Files.Basic
import StyleTree.Settings.Basic
import StyleTree.Toml.Read

/-!
# `StyleTree.Settings.Load` — finding and reading the settings

A user may name a settings file, which then has to exist. Otherwise the file of the working directory is used
if there is one, and the defaults if there is none.

A settings file may give any of the five settings, in any order and each at most once; what it leaves out
keeps its default. The format, being a choice between names, may also be given as a table with nothing in it
but the name.
-/

namespace StyleTree

/-- Why the settings cannot be used. -/
inductive SettingsError where
  /-- The file that was asked for does not exist. -/
  | missing (path : String)
  /-- The file cannot be read. -/
  | unreadable (path : String) (failure : ReadFailure)
  /-- The file does not hold settings. -/
  | malformed (path : String)
  /-- There is no such log level. -/
  | unknownLevel (level : String)
deriving DecidableEq, Repr

/-- The error in words. -/
def SettingsError.message : SettingsError → String
  | .missing path => s!"Config file {path} does not exist"
  | .unreadable path _ => s!"Failed to read {path}"
  | .malformed path => s!"Failed to parse {path}"
  | .unknownLevel level => s!"Unknown log level '{level}'"

/-- What lies behind the error, in words. -/
def SettingsError.causes : SettingsError → List String
  | .unreadable _ failure => [failure.message]
  | .missing _ | .malformed _ | .unknownLevel _ => []

namespace Settings

/-! ## Settings from a text -/

/-- The settings with the format of the given name. -/
def setFormat? (settings : Settings) (name : String) : Option Settings :=
  (OutputFormat.ofName? name).map fun format => { settings with format }

/-- The settings with one of them changed; fails for a name that is no setting and for a value of the wrong
    kind. -/
def set? (settings : Settings) (entry : Toml.Entry) : Option Settings :=
  match entry.path, entry.value with
  | ["indent"], .integer (.ofNat n) => some { settings with indent := n }
  | ["format"], .string name => settings.setFormat? name
  | ["format"], .choice name => settings.setFormat? name
  | ["format", name], .empty => settings.setFormat? name
  | ["show_locations"], .boolean b => some { settings with showLocations := b }
  | ["log_level"], .string logLevel => some { settings with logLevel }
  | ["color"], .boolean color => some { settings with color }
  | _, _ => none

/-- The name that an entry in the table of the format gives. -/
def nameInEntry? (entry : Toml.Entry) : Option String :=
  match entry.path, entry.value with
  | [name], .empty => some name
  | _, _ => none

/-- The names of formats that a section gives, if it is about nothing else. -/
def namesInSection? (part : Toml.Section) : Option (List String) :=
  match part.header, part.entries with
  | ["format"], entries => entries.mapM nameInEntry?
  | ["format", name], [] => some [name]
  | _, _ => none

/-- The settings with the format that sections give: they give one name between them, and no table has two
    headers. -/
def setInSections? (settings : Settings) (sections : List Toml.Section) : Option Settings :=
  match (sections.mapM namesInSection?).map List.flatten with
  | some [name] => if (sections.map (·.header)).Nodup then settings.setFormat? name else none
  | _ => none

/-- The settings that a file gives. -/
def parse? (text : String) : Option Settings := do
  let document ← Toml.parse? text
  let settings ← document.entries.foldlM set? {}
  let keys := document.entries.map (·.path.head?)
  guard keys.Nodup
  if document.sections.isEmpty then return settings
  guard (!keys.contains (some "format"))
  settings.setInSections? document.sections

/-! ## Settings from a file -/

/-- The settings file of the working directory. -/
def defaultFile : String := ".cascade.toml"

variable {m : Type → Type} [Monad m]

/-- The settings in a file. -/
def loadFile (files : Files m) (path : String) : m (Except SettingsError Settings) := do
  match ← files.read path with
  | .error failure => return .error (.unreadable path failure)
  | .ok document =>
    match parse? document with
    | none => return .error (.malformed path)
    | some settings => return .ok settings

/-- The settings in the file that was asked for, or else those of the working directory. -/
def load (files : Files m) (path? : Option String) : m (Except SettingsError Settings) := do
  match path? with
  | some path =>
    if ← files.isPresent path then loadFile files path else return .error (.missing path)
  | none =>
    if ← files.isPresent defaultFile then loadFile files defaultFile else return .ok {}

/-- The log level that the settings name. -/
def level (settings : Settings) : Except SettingsError LogLevel :=
  match settings.level? with
  | some level => .ok level
  | none => .error (.unknownLevel settings.logLevel)

end Settings

end StyleTree
