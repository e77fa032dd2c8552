import NovelScript.CommandLine.Run

/-!
# The decompiler as a program

Only here are files on a disk: `diskAccess` does what a run asks for.
-/

namespace NovelScript

/-- The refusal behind an error of the system. -/
def FileFault.ofError : IO.Error → FileFault
  | .noFileOrDirectory .. => .notFound
  | .alreadyExists .. => .alreadyExists
  | .inappropriateType .. => .notDirectory
  | e => .other (toString e)

/-- Does an action and catches what the system refuses. -/
def attemptAction {α : Type} (action : IO α) : IO (Except FileFault α) := do
  match ← action.toBaseIO with
  | .ok value => return .ok value
  | .error e => return .error (.ofError e)

/-- Access to the files of the machine. -/
def diskAccess : FileAccess IO where
  read path := attemptAction do
    return (← IO.FS.readBinFile path).toList
  createDirectories path := attemptAction (IO.FS.createDirAll path)
  write path contents := attemptAction (IO.FS.writeBinFile path (ByteArray.mk contents.toArray))

end NovelScript

/-- Runs the decompiler on the files of the machine. -/
def main (arguments : List String) : IO UInt32 := do
  let exit ← NovelScript.runArguments NovelScript.diskAccess arguments
  let stream ← if exit.code = 0 then IO.getStdout else IO.getStderr
  stream.putStr exit.message
  return exit.code.toUInt32
