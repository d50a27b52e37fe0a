/-!
# `StyleTree.Files.Basic` — paths and what commands ask of the world

Two spellings of a path are the same path if they have the same parts (`pathParts`). Repeated and trailing
slashes make no part, and neither does a dot, unless the path begins with it. Paths are listed part by part, so
what is in a directory stands together.

Commands read files and standard input, and look into directories. They do so only through the operations
collected in `Files`, so the same commands run on a real file system and on one that is held in memory.
-/

namespace StyleTree

/-! ## The parts of a path and their order -/

/-- A part of a path. -/
inductive PathPart where
  /-- The slash at the start of an absolute path. -/
  | root
  /-- The directory itself. -/
  | current
  /-- The directory around it. -/
  | parent
  /-- A name. -/
  | name (name : String)
deriving DecidableEq, Repr

/-- Whether one part comes before another or is the same. Names are ordered by their characters and come
    last. -/
def PathPart.le : PathPart → PathPart → Bool
  | .root, _ => true
  | .current, other => other != .root
  | .parent, other => other != .root && other != .current
  | .name a, .name b => a ≤ b
  | .name _, _ => false

/-- The pieces of a path between its slashes. -/
def pathPieces (path : String) : List String :=
  (path.toList.splitOn '/').map String.ofList

/-- The part that a piece is, if it is one. -/
def PathPart.ofPiece? : String → Option PathPart
  | "" => none
  | "." => none
  | ".." => some .parent
  | piece => some (.name piece)

/-- The parts of a path. -/
def pathParts (path : String) : List PathPart :=
  match pathPieces path with
  | "" :: pieces@(_ :: _) => .root :: pieces.filterMap PathPart.ofPiece?
  | "." :: pieces => .current :: pieces.filterMap PathPart.ofPiece?
  | pieces => pieces.filterMap PathPart.ofPiece?

/-- Whether one list of parts comes before another or is the same. -/
def pathPartsLe : List PathPart → List PathPart → Bool
  | [], _ => true
  | _ :: _, [] => false
  | a :: as, b :: bs => if a = b then pathPartsLe as bs else a.le b

/-- Whether one path comes before another or is the same. -/
def pathLe (a b : String) : Bool :=
  pathPartsLe (pathParts a) (pathParts b)

/-- The paths without those that are the same as the one before them. -/
def dropRepeated : List String → List String
  | [] => []
  | a :: rest =>
    match dropRepeated rest with
    | [] => [a]
    | b :: rest => if pathParts a = pathParts b then a :: rest else a :: b :: rest

/-- Each of the paths once, in order; of several spellings the first one given. -/
def sortPaths (paths : List String) : List String :=
  dropRepeated (paths.mergeSort pathLe)

/-! ## Access to files -/

/-- Why there is no text to read. -/
inductive ReadFailure where
  /-- There is nothing of that name. -/
  | missing
  /-- The path goes on behind a file. -/
  | notADirectory
  /-- The path names a directory. -/
  | isADirectory
  /-- The path, or a name in it, is longer than any can be. -/
  | nameTooLong
  /-- The bytes are not UTF-8. -/
  | notText
  /-- The system refuses, in its own words. -/
  | refused (reason : String)
deriving DecidableEq, Repr

/-- The failure in the words of the operating system. -/
def ReadFailure.message : ReadFailure → String
  | .missing => "No such file or directory (os error 2)"
  | .notADirectory => "Not a directory (os error 20)"
  | .isADirectory => "Is a directory (os error 21)"
  | .nameTooLong => "File name too long (os error 36)"
  | .notText => "stream did not contain valid UTF-8"
  | .refused reason => reason

/-- Access to files, as computations of the monad `m`. Paths are relative to the working directory. -/
structure Files (m : Type → Type) where
  /-- The text of a file. -/
  read : String → m (Except ReadFailure String)
  /-- The text on standard input. -/
  input : m (Except ReadFailure String)
  /-- Whether there is a file or directory of that name. -/
  isPresent : String → m Bool
  /-- Whether there is a directory of that name. -/
  isDirectory : String → m Bool
  /-- The names of all files and directories directly inside a directory. -/
  entries : String → m (List String)
  /-- The paths, relative to a directory, of all files and directories inside it at any depth. -/
  below : String → m (List String)

/-- The working directory. -/
def Files.workingDirectory : String := "."

/-- The path of something inside a directory, both parts written out. -/
def Files.appendPath (directory relative : String) : String :=
  if directory.toList.getLast? = some '/' then directory ++ relative
  else directory ++ "/" ++ relative

/-- The path of something inside a directory. The working directory is left out of paths. -/
def Files.joinPath (directory relative : String) : String :=
  if pathParts directory = [.current] then relative else appendPath directory relative

end StyleTree
