import NovelScript.Byte.Word
import NovelScript.FileFault

/-!
# Files by path

A program that reads and writes files does so through `FileAccess`, in any monad.  `FileTree` is a
set of files in memory, which may take the place of a disk.

A path is a text with slashes between names.  `parent` and `withExtension` change the text alone,
and `names` says which names lead to the file.
-/

namespace NovelScript

/-! ## Paths -/

namespace Path

/-- A text without the slashes at its end. -/
def withoutTrailing (path : List Char) : List Char :=
  (path.reverse.dropWhile (· == '/')).reverse

/-- Splits a path in front of its last name. -/
def splitLast (path : String) : List Char × List Char :=
  let backwards := (withoutTrailing path.toList).reverse
  ((backwards.dropWhile (· != '/')).reverse, (backwards.takeWhile (· != '/')).reverse)

/-- The path of the directory that holds a file, empty if that is the working directory. -/
def parent (path : String) : String :=
  let directory := (splitLast path).1
  let trimmed := withoutTrailing directory
  .ofList (if trimmed.isEmpty then directory.take 1 else trimmed)

/-- A name without its extension.  A dot at the front opens no extension. -/
def stem (name : List Char) : List Char :=
  let backwards := name.reverse
  let front := (backwards.dropWhile (· != '.')).drop 1
  if front.isEmpty then name else front.reverse

/-- The path with another extension at its last name. -/
def withExtension (path : String) (extension : String) : String :=
  let (directory, name) := splitLast path
  if name.isEmpty || name == ['.'] || name == ['.', '.'] then path
  else .ofList (directory ++ stem name ++ '.' :: extension.toList)

/-- The names of a text between slashes. -/
def split (current : List Char) : List Char → List String
  | [] => [.ofList current.reverse]
  | c :: rest =>
    if c = '/' then .ofList current.reverse :: split [] rest else split (c :: current) rest

/-- Takes a name into account on the way to a file; two dots lead back. -/
def follow (way : List String) (name : String) : List String :=
  if name.isEmpty || name == "." then way
  else if name == ".." then way.dropLast
  else way ++ [name]

/-- The names that lead to a file. -/
def names (path : String) : List String := (split [] path.toList).foldl follow []

/-- Whether a path ends in a slash, so that it can only be that of a directory. -/
def isDirectoryLike (path : String) : Bool := path.toList.getLast? == some '/'

end Path

/-! ## Access -/

/-- How a program reaches files. -/
structure FileAccess (m : Type → Type) where
  read : String → m (Except FileFault Bytes)
  /-- Makes a directory and those around it, where they are missing. -/
  createDirectories : String → m (Except FileFault Unit)
  /-- Makes a file or replaces its contents. -/
  write : String → Bytes → m (Except FileFault Unit)

/-! ## Files in memory -/

/-- Files, and directories that may have none. -/
structure FileTree where
  files : List (List String × Bytes) := []
  directories : List (List String) := []

namespace FileTree

/-- The contents of a file. -/
def file? (tree : FileTree) (way : List String) : Option Bytes := tree.files.lookup way

/-- Whether the names lead to a directory: the top, one that was made, or one around a file. -/
def isDirectory (tree : FileTree) (way : List String) : Bool :=
  way.isEmpty || tree.directories.any (way.isPrefixOf ·)
    || tree.files.any fun entry => way.isPrefixOf entry.1.dropLast

/-- Whether the names lead through a file. -/
def leadsThroughFile (tree : FileTree) (way : List String) : Bool :=
  tree.files.any fun entry => entry.1.isPrefixOf way && entry.1 != way

/-- Reads a file. -/
def read (tree : FileTree) (path : String) : Except FileFault Bytes :=
  let way := Path.names path
  match tree.file? way with
  | some contents => if Path.isDirectoryLike path then .error .notDirectory else .ok contents
  | none =>
    if path.isEmpty then .error .notFound
    else if tree.isDirectory way then .error .isDirectory
    else if tree.leadsThroughFile way then .error .notDirectory
    else .error .notFound

/-- Makes a directory and those around it. -/
def createDirectories (tree : FileTree) (path : String) : Except FileFault FileTree :=
  let way := Path.names path
  if tree.isDirectory way then .ok tree
  else if (tree.file? way).isSome then .error .alreadyExists
  else if tree.leadsThroughFile way then .error .notDirectory
  else .ok { tree with directories := tree.directories ++ [way] }

/-- Replaces the contents of a file in a list, or adds the file. -/
def put (way : List String) (contents : Bytes) :
    List (List String × Bytes) → List (List String × Bytes)
  | [] => [(way, contents)]
  | entry :: rest =>
    if entry.1 = way then (way, contents) :: rest else entry :: put way contents rest

/-- Makes a file or replaces its contents. -/
def write (tree : FileTree) (path : String) (contents : Bytes) : Except FileFault FileTree :=
  let way := Path.names path
  if tree.isDirectory way || Path.isDirectoryLike path then .error .isDirectory
  else if tree.leadsThroughFile way then .error .notDirectory
  else if tree.isDirectory way.dropLast then
    .ok { tree with files := put way contents tree.files }
  else .error .notFound

/-- Does a change if it is possible. -/
def attempt (change : FileTree → Except FileFault FileTree) :
    StateM FileTree (Except FileFault Unit) :=
  fun tree =>
    match change tree with
    | .ok changed => (.ok (), changed)
    | .error fault => (.error fault, tree)

/-- Access to the files of a tree. -/
def access : FileAccess (StateM FileTree) where
  read path := return (← get).read path
  createDirectories path := attempt (·.createDirectories path)
  write path contents := attempt (·.write path contents)

end FileTree
end NovelScript
