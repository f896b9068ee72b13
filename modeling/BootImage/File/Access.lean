import BootImage.File.Tree

/-!
# Access to files

The file operations that the commands use, as an interface with one instance that works on a file tree and, in
the program itself, one that works on the disk.
-/

namespace BootImage

inductive ReadFailure
  | opening (error : FileError)
  | reading (error : FileError)
  deriving DecidableEq, Repr

def ReadFailure.error : ReadFailure → FileError
  | .opening e => e
  | .reading e => e

class FileAccess (m : Type → Type) where
  read : Path → m (Except ReadFailure Bytes)
  createFile : Path → Bytes → m (Except FileError Unit)
  makeDirectory : Path → m (Except FileError Unit)
  isDirectory : Path → m Bool
  renameFile : Path → Path → m (Except FileError Unit)
  removeFile : Path → m (Except FileError Unit)

namespace FileTree

/-- A directory can be opened, but it cannot be read. -/
def read (t : FileTree) (p : Path) : Except ReadFailure Bytes :=
  match t.lookup p with
  | .ok (_, .file contents) => .ok contents
  | .ok (_, .directory) => .error (.reading (.system .isDirectory))
  | .error e => .error (.opening e)

def perform (operation : FileTree → Except FileError FileTree) :
    StateM FileTree (Except FileError Unit) := fun t =>
  match operation t with
  | .ok next => (.ok (), next)
  | .error e => (.error e, t)

instance : FileAccess (StateM FileTree) where
  read p := fun t => (t.read p, t)
  createFile p contents := perform (·.createFile p contents)
  makeDirectory p := perform (·.makeDirectory p)
  isDirectory p := fun t => (t.isDirectory p, t)
  renameFile source destination := perform (·.renameFile source destination)
  removeFile p := perform (·.removeFile p)

end FileTree

end BootImage
