/-!
# Files

The operations on files that the generator and the command line need, over any monad, and the paths
they take.  A path is a text whose parts are separated by slashes.
-/

namespace CellAbi

inductive FileError where
  | notFound
  | notDirectory
  | isDirectory
  | alreadyExists
  | nameTooLong
  /-- The content is no text. -/
  | notText
  | other (message : String)
deriving DecidableEq, Repr

def FileError.message : FileError → String
  | notFound => "No such file or directory (os error 2)"
  | notDirectory => "Not a directory (os error 20)"
  | isDirectory => "Is a directory (os error 21)"
  | alreadyExists => "File exists (os error 17)"
  | nameTooLong => "File name too long (os error 36)"
  | notText => "stream did not contain valid UTF-8"
  | other message => message

/-- Operations on files. -/
structure Files (m : Type → Type) where
  isFile : String → m Bool
  readText : String → m (Except FileError String)
  /-- Names of the entries of a directory, in any order. -/
  entries : String → m (Except FileError (List String))
  /-- Creates a directory and those above it, as far as they are missing. -/
  createDirs : String → m (Except FileError Unit)
  /-- Writes a file, in the place of one that exists. -/
  write : String → String → m (Except FileError Unit)
  /-- Creates an empty file unless there is one. -/
  touch : String → m (Except FileError Unit)

namespace Path

/-- Puts a path behind a directory. -/
def join (dir path : String) : String :=
  match path.toList with
  | '/' :: _ => path
  | _ =>
    match dir.toList.getLast? with
    | none => path
    | some '/' => dir ++ path
    | some _ => dir ++ "/" ++ path

/-- The parts between slashes. -/
def split (part : List Char) : List Char → List String
  | [] => [String.ofList part.reverse]
  | c :: rest =>
    if c = '/' then String.ofList part.reverse :: split [] rest else split (c :: part) rest

/-- The parts of a path. -/
def parts (path : String) : List String := split [] path.toList

end Path

end CellAbi
