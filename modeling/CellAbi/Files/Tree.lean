import CellAbi.Files.Basic

/-!
# File trees

A directory in memory: the texts of its files and its directories, by their path from the root.
Paths are walked part by part, and every part but the last has to be a directory that exists.
-/

namespace CellAbi

/-- Files and directories; directories that hold a file need not be listed. -/
structure FileTree where
  files : List (List String × String) := []
  dirs : List (List String) := []

namespace FileTree

def text? (t : FileTree) (path : List String) : Option String := t.files.lookup path

def hasDir (t : FileTree) (path : List String) : Bool :=
  path.isEmpty || t.dirs.any path.isPrefixOf ||
    t.files.any fun (file, _) => path.isPrefixOf file && path != file

/-- The most bytes of a name. -/
def maxName : Nat := 255

/-- Fails unless the path is a directory. -/
def requireDir (t : FileTree) (path : List String) : Except FileError Unit :=
  if t.hasDir path then .ok ()
  else if (t.text? path).isSome then .error .notDirectory
  else .error .notFound

/-- Walks from `here` along the parts of a path. -/
def walk (t : FileTree) (here : List String) : List String → Except FileError (List String)
  | [] => .ok here
  | part :: rest => do
    t.requireDir here
    if part = "" ∨ part = "." then walk t here rest
    else if part = ".." then
      if here.isEmpty then throw .notFound else walk t here.dropLast rest
    else if part.utf8ByteSize > maxName then throw .nameTooLong
    else walk t (here ++ [part]) rest

/-- The place that a path leads to.  Only the tree below the root can be reached. -/
def resolve (t : FileTree) (path : String) : Except FileError (List String) :=
  match Path.parts path with
  | "" :: _ => .error .notFound
  | parts => t.walk [] parts

def isFile (t : FileTree) (path : String) : Bool :=
  match t.resolve path with
  | .ok place => (t.text? place).isSome
  | .error _ => false

def readText (t : FileTree) (path : String) : Except FileError String := do
  let place ← t.resolve path
  match t.text? place with
  | some text => return text
  | none => if t.hasDir place then throw .isDirectory else throw .notFound

/-- The parts that follow a directory in the paths below it. -/
def entries (t : FileTree) (path : String) : Except FileError (List String) := do
  let place ← t.resolve path
  t.requireDir place
  let below := (t.files.map Prod.fst ++ t.dirs).filterMap fun p =>
    (place.isPrefixOf? p).bind List.head?
  return below.eraseDups

/-- Creates the directories along the parts of a path. -/
def createAlong (t : FileTree) (here : List String) : List String → Except FileError FileTree
  | [] => .ok t
  | part :: rest =>
    if part = "" ∨ part = "." then createAlong t here rest
    else if part = ".." then createAlong t here.dropLast rest
    else if part.utf8ByteSize > maxName then .error .nameTooLong
    else
      let next := here ++ [part]
      if t.hasDir next then createAlong t next rest
      else if (t.text? next).isSome then
        .error (if rest.isEmpty then .alreadyExists else .notDirectory)
      else createAlong { t with dirs := t.dirs ++ [next] } next rest

def createDirs (t : FileTree) (path : String) : Except FileError FileTree :=
  match Path.parts path with
  | [""] => .ok t
  | "" :: _ => .error .notFound
  | parts => t.createAlong [] parts

/-- Puts a text in the place of the file of that path, or behind all others. -/
def put (path : List String) (text : String) :
    List (List String × String) → List (List String × String)
  | [] => [(path, text)]
  | (p, t) :: rest => if p = path then (path, text) :: rest else (p, t) :: put path text rest

def write (t : FileTree) (path text : String) : Except FileError FileTree := do
  let place ← t.resolve path
  if t.hasDir place then throw .isDirectory
  return { t with files := put place text t.files }

def touch (t : FileTree) (path : String) : Except FileError FileTree := do
  let place ← t.resolve path
  if t.hasDir place then throw .isDirectory
  if (t.text? place).isSome then return t else return { t with files := put place "" t.files }

/-- The tree that holds these files. -/
def ofFiles (files : List (String × String)) : FileTree :=
  { files := files.map fun (path, text) =>
      ((Path.parts path).filter fun part => part != "" && part != ".", text) }

/-- All files with their paths. -/
def toFiles (t : FileTree) : List (String × String) :=
  t.files.map fun (path, text) => ("/".intercalate path, text)

/-- Keeps the tree where a change fails. -/
def change (f : FileTree → Except FileError FileTree) :
    StateM FileTree (Except FileError Unit) := fun t =>
  match f t with
  | .ok t' => (.ok (), t')
  | .error e => (.error e, t)

/-- The operations on a tree. -/
def access : Files (StateM FileTree) where
  isFile path := return (← get).isFile path
  readText path := return (← get).readText path
  entries path := return (← get).entries path
  createDirs path := change (·.createDirs path)
  write path text := change (·.write path text)
  touch path := change (·.touch path)

end FileTree

end CellAbi
