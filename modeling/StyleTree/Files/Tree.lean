import StyleTree.Files.Basic

/-!
# `StyleTree.Files.Tree` — files in memory

A file system held as a value: for embedding the commands where there is none, and for reasoning about them.
Directories of a `FileTree` exist because something is in them, because they are listed themselves, or because
they lead to the working directory.

A path is followed piece by piece, and every piece but the last has to lead to a directory
(`FileTree.resolve`). On that rest the operations that commands use, `FileTree.files`.
-/

namespace StyleTree

/-- What there is at a path. -/
inductive FileTree.Entry where
  /-- A file with its bytes. -/
  | file (bytes : ByteArray)
  /-- A directory. -/
  | directory

/-- The contents of a file system. Places in it are lists of names, from the root on. -/
structure FileTree where
  /-- What there is, and where. -/
  entries : List (List String × FileTree.Entry)
  /-- The working directory. -/
  workingDirectory : List String

namespace FileTree

/-! ## Looking up -/

/-- What there is at a place. -/
def entry? (tree : FileTree) (names : List String) : Option Entry :=
  match tree.entries.find? fun e => e.1 == names with
  | some e => some e.2
  | none =>
    let isInside := fun inner => names.isPrefixOf inner
    if isInside tree.workingDirectory || tree.entries.any (isInside ·.1) then some .directory else none

/-- The greatest number of bytes in a name. -/
def greatestName : Nat := 255

/-- The greatest number of bytes in a path. -/
def greatestPath : Nat := 4095

/-- Follows the pieces of a path from a place on. An empty piece stays where it is, but only a directory can be
    stayed in. The directory around the root is the root. -/
def follow (tree : FileTree) (names : List String) :
    List String → Except ReadFailure (List String × Entry)
  | [] =>
    match tree.entry? names with
    | some entry => .ok (names, entry)
    | none => .error .missing
  | piece :: pieces =>
    match tree.entry? names with
    | none => .error .missing
    | some (.file _) => .error .notADirectory
    | some .directory =>
      if piece = "" ∨ piece = "." then follow tree names pieces
      else if piece = ".." then follow tree names.dropLast pieces
      else if piece.utf8ByteSize > greatestName then .error .nameTooLong
      else follow tree (names ++ [piece]) pieces

/-- The place that a path leads to, and what there is. -/
def resolve (tree : FileTree) (path : String) : Except ReadFailure (List String × Entry) :=
  if path.utf8ByteSize > greatestPath then .error .nameTooLong
  else
    match pathPieces path with
    | [""] => .error .missing
    | "" :: pieces => tree.follow [] pieces
    | pieces => tree.follow tree.workingDirectory pieces

/-- The text of a file. -/
def read (tree : FileTree) (path : String) : Except ReadFailure String := do
  match ← tree.resolve path with
  | (_, .directory) => throw .isADirectory
  | (_, .file bytes) =>
    match String.fromUTF8? bytes with
    | some text => return text
    | none => throw .notText

/-- The place of a directory, if the path leads to one. -/
def directory? (tree : FileTree) (path : String) : Option (List String) :=
  match tree.resolve path with
  | .ok (names, .directory) => some names
  | _ => none

/-- The places of all that is in a directory at any depth, relative to it and each once. -/
def below (tree : FileTree) (names : List String) : List (List String) :=
  let inside := tree.entries.filterMap fun e =>
    if names.isPrefixOf e.1 then some (e.1.drop names.length) else none
  (inside.flatMap fun relative =>
    (List.range relative.length).map fun n => relative.take (n + 1)).eraseDups

/-! ## Access -/

/-- The operations on files in memory, with the given text on standard input. -/
def files (tree : FileTree) (input : String) : Files Id where
  read path := tree.read path
  input := .ok input
  isPresent path := (tree.resolve path).isOk
  isDirectory path := (tree.directory? path).isSome
  entries path :=
    match tree.directory? path with
    | some names => (tree.below names).filterMap fun relative =>
        match relative with
        | [name] => some name
        | _ => none
    | none => []
  below path :=
    match tree.directory? path with
    | some names => (tree.below names).map ("/".intercalate ·)
    | none => []

end FileTree

end StyleTree
