import BootImage.File.Access

/-!
# Writing files

A file is written with the directories above it, which are made as needed.  An atomic write goes to a
temporary sibling first, which is then moved to the file's own name; if a step fails, the sibling is removed.
-/

namespace BootImage

inductive WriteFailure
  | operation (error : FileError)
  | creation (path : Path) (error : FileError)
  deriving DecidableEq, Repr

def WriteFailure.messages : WriteFailure → List String
  | .operation error => [error.message]
  | .creation path error => [s!"Failed to create file '{path.text}'", error.message]

inductive AtomicWriteFailure
  | unnamed (path : Path)
  | failed (path : Path) (cause : WriteFailure)
  deriving DecidableEq, Repr

def AtomicWriteFailure.messages : AtomicWriteFailure → List String
  | .unnamed path => [s!"'{path.text}' is not a file path"]
  | .failed path cause => s!"Failed to write file '{path.text}'" :: cause.messages

/-- The sibling that holds a file while it is written: its name ends in `tag`, which tells the writers
apart. -/
def Path.temporary? (p : Path) (tag : String) : Option Path :=
  p.fileName? >>= fun name => p.withFileName? (name ++ "." ++ tag ++ ".tmp")

namespace FileAccess

variable {m : Type → Type} [Monad m] [FileAccess m]

/-- Makes a directory; that there already is one is no failure. -/
def ensureDirectory (p : Path) : m (Except FileError Unit) := do
  match ← makeDirectory p with
  | .ok () => return .ok ()
  | .error e => if ← isDirectory p then return .ok () else return .error e

/-- Makes the first of the paths a directory; if it cannot be found, the rest first. -/
def makeDirectories : List Path → m (Except FileError Unit)
  | [] => return .error (.system .notFound)
  | p :: above =>
    if p.text = "" then return .ok ()
    else do
      match ← makeDirectory p with
      | .ok () => return .ok ()
      | .error (.system .notFound) =>
        match ← makeDirectories above with
        | .ok () => ensureDirectory p
        | .error e => return .error e
      | .error e => if ← isDirectory p then return .ok () else return .error e

def makeParents (p : Path) : m (Except FileError Unit) :=
  match p.parent? with
  | some parent => makeDirectories parent.ancestors
  | none => return .ok ()

def writeFile (p : Path) (contents : Bytes) : m (Except WriteFailure Unit) := do
  match ← makeParents p with
  | .error e => return .error (.operation e)
  | .ok () => return (← createFile p contents).mapError (.creation p)

def writeBy (temporary p : Path) (contents : Bytes) : m (Except WriteFailure Unit) := do
  match ← writeFile temporary contents with
  | .error e => return .error e
  | .ok () => return (← renameFile temporary p).mapError .operation

/-- Writes a file so that either all of its contents are there or nothing has changed. -/
def writeAtomically (tag : String) (p : Path) (contents : Bytes) : m (Except AtomicWriteFailure Unit) := do
  match p.temporary? tag with
  | none => return .error (.unnamed p)
  | some temporary =>
    match ← writeBy temporary p contents with
    | .ok () => return .ok ()
    | .error e =>
      let _ ← removeFile temporary
      return .error (.failed p e)

end FileAccess

end BootImage
