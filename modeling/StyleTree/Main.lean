import StyleTree.Command.Run

/-!
# `StyleTree.Main` — the program

The operations that commands use, on the file system of the machine (`Console.files`), and the program that runs
them.
-/

namespace StyleTree.Console

/-- The bytes of a text, if they are one. -/
def textOf (bytes : ByteArray) : Except ReadFailure String :=
  match String.fromUTF8? bytes with
  | some text => .ok text
  | none => .error .notText

/-- Why the system gives no bytes. -/
def failureOf : IO.Error → ReadFailure
  | .noFileOrDirectory .. | .noSuchThing .. => .missing
  | .inappropriateType .. | .illegalOperation .. => .isADirectory
  | .invalidArgument _ 36 _ => .nameTooLong
  | error => .refused (toString error)

/-- All bytes of a stream. -/
partial def readAll (stream : IO.FS.Stream) (bytes : ByteArray) : IO ByteArray := do
  let more ← stream.read 65536
  if more.isEmpty then return bytes else readAll stream (bytes ++ more)

/-- The result of reading bytes. -/
def readWith (action : IO ByteArray) : IO (Except ReadFailure String) := do
  try
    return textOf (← action)
  catch error => return .error (failureOf error)

/-- The paths of everything below a directory, relative to it. -/
partial def below (files : Files IO) (directory : String) : IO (List String) := do
  let mut found := []
  for name in ← files.entries directory do
    found := found ++ [name]
    let inner := Files.appendPath directory name
    if ← files.isDirectory inner then
      found := found ++ (← below files inner).map (Files.appendPath name)
  return found

/-- The operations on the file system of the machine. -/
def files : IO (Files IO) := do
  let here ← IO.currentDir
  let base : Files IO := {
    read := fun path => do
      if ← (here / path).isDir then return .error .isADirectory
      readWith (IO.FS.readBinFile path)
    input := do readWith (readAll (← IO.getStdin) .empty)
    isPresent := fun path => (here / path).pathExists
    isDirectory := fun path => (here / path).isDir
    entries := fun path => do
      try
        return (← (here / path).readDir).toList.map (·.fileName)
      catch _ => return []
    below := fun _ => return [] }
  return { base with below := below base }

/-- Whether messages may be coloured: always if the environment insists, otherwise on a terminal. -/
def terminal : IO Bool := do
  match ← IO.getEnv "CLICOLOR_FORCE" with
  | some "0" | none => return (← IO.getEnv "NO_COLOR").isNone && (← (← IO.getStdout).isTty)
  | some _ => return true

end StyleTree.Console

/-- Runs the program with the given arguments. -/
def main (arguments : List String) : IO UInt32 := do
  let outcome ← StyleTree.run (← StyleTree.Console.files) (← StyleTree.Console.terminal) arguments
  (← IO.getStdout).putStr outcome.output
  (← IO.getStderr).putStr outcome.errors
  return outcome.code.toUInt32
