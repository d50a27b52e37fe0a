import StyleTree.Files.Basic
import StyleTree.Files.Pattern

/-!
# `StyleTree.Files.Expand` — the files that patterns name

A path pattern is followed part by part (`PathPattern.find`). A part without wildcards is looked up, so that no
directory has to be read for it; a part with wildcards is compared with the names in the directory reached so
far; two stars reach every directory below it.

`expandPatterns` lists the paths that several patterns name, in order and each once. A pattern that no file fits
is taken as the path of a file.
-/

namespace StyleTree

/-- A pattern for each part of a path. -/
structure PathPattern where
  /-- The directory that the pattern starts from. -/
  base : String
  /-- The patterns of the parts. -/
  parts : List Pattern
  /-- Whether only directories fit, because the pattern ends with a slash. -/
  directoryOnly : Bool
deriving DecidableEq, Repr

namespace PathPattern

/-! ## Reading -/

/-- The pieces of a path without the empty one behind a slash at its end. The empty path is one empty
    piece. -/
def closedPieces (path : String) : List String :=
  match pathPieces path with
  | [piece] => [piece]
  | pieces => if pieces.getLast? = some "" then pieces.dropLast else pieces

/-- A run of parts that reach every depth reaches no further than one such part. -/
def joinDepths : List Pattern → List Pattern
  | [] => []
  | part :: rest =>
    let rest := joinDepths rest
    if part = [.anyDepth] ∧ rest.head? = some [.anyDepth] then rest else part :: rest

/-- Reads a path pattern. The whole of it has to be a pattern and each of its parts as well, which asks for
    more where a class of characters holds a slash. -/
def parse (text : String) : Except PatternError PathPattern := do
  let _ ← Pattern.parse text
  let (base, relative) := match text.toList with
    | '/' :: relative => ("/", String.ofList relative)
    | _ => (Files.workingDirectory, text)
  let parts ← (closedPieces relative).mapM Pattern.parse
  return { base, parts := joinDepths parts, directoryOnly := text.toList.getLast? = some '/' }

/-! ## Finding -/

variable {m : Type → Type} [Monad m]

/-- The last piece of a path. -/
def lastPiece (path : String) : String :=
  (pathPieces path).getLastD ""

/-- The paths that fit the parts left, from a path that fits the parts before. A directory holds entries
    for itself and for the directory around it, but only a part that begins with a dot can name these. They come
    before all other entries; those are taken in the order of their names, and at any depth a directory comes
    before what is in it. -/
def findFrom (files : Files m) (directoryOnly : Bool) (path : String) :
    List Pattern → m (List String)
  | [] => do
    if directoryOnly && !(← files.isDirectory path) then return []
    return [path]
  | part :: rest =>
    match part.literal? with
    | some name => do
      let next := Files.joinPath path name
      let found ← if name = "." ∨ name = ".." then files.isDirectory path else files.isPresent next
      if found then findFrom files directoryOnly next rest else return []
    | none => do
      unless ← files.isDirectory path do return []
      if part = [.anyDepth] then
        let below := ((← files.below path).mergeSort pathLe).map (Files.joinPath path)
        match rest with
        | [] => below.filterM files.isDirectory
        | part :: rest =>
          (below.filter fun entry => part.fits (lastPiece entry)).flatMapM fun entry =>
            findFrom files directoryOnly entry rest
      else
        let links := if part.head? = some (.char '.') then ["..", "."] else []
        let names := (← files.entries path).mergeSort (· ≤ ·)
        let fitting := (links.filter part.fits).map (Files.appendPath path)
          ++ (names.filter part.fits).map (Files.joinPath path)
        fitting.flatMapM fun entry => findFrom files directoryOnly entry rest

/-- The paths that fit a pattern. -/
def find (files : Files m) (pattern : PathPattern) : m (List String) :=
  findFrom files pattern.directoryOnly pattern.base pattern.parts

end PathPattern

/-- A text given as a pattern that is none. -/
structure InvalidPattern where
  /-- The text. -/
  text : String
  /-- What is wrong with it. -/
  error : PatternError
deriving DecidableEq, Repr

variable {m : Type → Type} [Monad m]

/-- The paths that each of the patterns names. -/
def findPatterns (files : Files m) : List String → m (Except InvalidPattern (List String))
  | [] => return .ok []
  | text :: texts => do
    match PathPattern.parse text with
    | .error error => return .error ⟨text, error⟩
    | .ok pattern =>
      let found ← pattern.find files
      let found := if found.isEmpty then [text] else found
      return (← findPatterns files texts).map (found ++ ·)

/-- The paths that a list of patterns names, in order and each once. -/
def expandPatterns (files : Files m) (texts : List String) : m (Except InvalidPattern (List String)) := do
  return (← findPatterns files texts).map sortPaths

end StyleTree
