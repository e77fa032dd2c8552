/-!
# Why a file cannot be used
-/

namespace NovelScript

/-- What the system, or a stream of limited size, refuses. -/
inductive FileFault where
  | notFound
  | alreadyExists
  | notDirectory
  | isDirectory
  | invalidText
  | shortRead
  | shortWrite
  | badSeek
  /-- Any other refusal, in the words of the system. -/
  | other (message : String)
deriving DecidableEq

/-- The wording of a refusal. -/
def FileFault.message : FileFault → String
  | notFound => "No such file or directory (os error 2)"
  | alreadyExists => "File exists (os error 17)"
  | notDirectory => "Not a directory (os error 20)"
  | isDirectory => "Is a directory (os error 21)"
  | invalidText => "stream did not contain valid UTF-8"
  | shortRead => "failed to fill whole buffer"
  | shortWrite => "failed to write whole buffer"
  | badSeek => "invalid seek to a negative or overflowing position"
  | other message => message

end NovelScript
