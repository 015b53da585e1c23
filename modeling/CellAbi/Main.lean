import CellAbi.CommandLine.Run

/-!
# The program

Runs a command line on the files of the working directory.
-/

namespace CellAbi

/-- The cause of a failed operation on files; 21 and 36 are the system's codes of two causes. -/
def FileError.ofIO : IO.Error → FileError
  | .noFileOrDirectory .. | .noSuchThing .. => .notFound
  | .inappropriateType _ 21 _ => .isDirectory
  | .inappropriateType .. => .notDirectory
  | .alreadyExists .. => .alreadyExists
  | .invalidArgument _ 36 _ => .nameTooLong
  | e => .other (toString e)

/-- Runs an operation on files. -/
def attempt {α : Type} (action : IO α) : IO (Except FileError α) := do
  match ← action.toBaseIO with
  | .ok a => return .ok a
  | .error e => return .error (.ofIO e)

/-- The files of the working directory. -/
def workingFiles : Files IO where
  isFile path := do
    match ← attempt do (← IO.FS.realPath path).metadata with
    | .ok metadata => return metadata.type == .file
    | .error _ => return false
  readText path := do
    match ← attempt (IO.FS.readBinFile path) with
    | .error e => return .error e
    | .ok bytes =>
      match String.fromUTF8? bytes with
      | some text => return .ok text
      | none => return .error .notText
  entries path := attempt do
    return (← (← IO.FS.realPath path).readDir).toList.map (·.fileName)
  createDirs path := attempt (IO.FS.createDirAll path)
  write path text := attempt (IO.FS.writeFile path text)
  touch path := attempt do
    let _ ← IO.FS.Handle.mk path .append

end CellAbi

def main (words : List String) : IO UInt32 := do
  let values ← ["TVM_ABI_CONFIG", "TVM_ABI_LOG"].filterMapM fun name => do
    return (← IO.getEnv name).map fun value => (name, value)
  let outcome ← CellAbi.CommandLine.run CellAbi.workingFiles (fun name => values.lookup name) words
  IO.print outcome.output
  IO.eprint outcome.errors
  return outcome.code.toUInt32
