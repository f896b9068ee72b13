import BootImage.Command.Program

/-!
# The program

Runs the program on the disk: file access by the operating system, the process's arguments and environment,
and its standard output and error.
-/

namespace BootImage

def systemReport : IO.Error → Nat × String
  | .alreadyExists _ code text | .noFileOrDirectory _ code text | .invalidArgument _ code text
  | .permissionDenied _ code text | .resourceExhausted _ code text | .inappropriateType _ code text
  | .noSuchThing _ code text | .interrupted _ code text => (code.toNat, text)
  | .otherError code text | .resourceBusy code text | .resourceVanished code text
  | .unsupportedOperation code text | .hardwareFault code text | .unsatisfiedConstraints code text
  | .illegalOperation code text | .protocolError code text | .timeExpired code text => (code.toNat, text)
  | .unexpectedEof => (0, "unexpected end of file")
  | .userError text => (0, text)

def FileError.ofSystem (e : IO.Error) : FileError := .system (.ofCode (systemReport e).1 (systemReport e).2)

/-- Performs an operation on the disk, unless its path holds a NUL. -/
def performOnDisk {α : Type} (paths : List Path) (operation : IO α) : IO (Except FileError α) := do
  if paths.any fun p => p.text.toList.contains '\x00' then return .error .nulInPath
  else
    match ← operation.toBaseIO with
    | .ok a => return .ok a
    | .error e => return .error (.ofSystem e)

instance : FileAccess IO where
  read p := do
    match ← performOnDisk [p] (IO.FS.Handle.mk p.text .read) with
    | .error e => return .error (.opening e)
    | .ok handle => return (← performOnDisk [] handle.readBinToEnd).map ByteArray.toList |>.mapError .reading
  createFile p contents := performOnDisk [p] (IO.FS.writeBinFile p.text contents.toByteArray)
  makeDirectory p := performOnDisk [p] (IO.FS.createDir p.text)
  isDirectory p := do
    if p.text = "" then return false else ((← IO.currentDir) / p.text).isDir
  renameFile source destination :=
    performOnDisk [source, destination] (IO.FS.rename source.text destination.text)
  removeFile p := performOnDisk [p] (IO.FS.removeFile p.text)

/-- The number that tells this process from others. -/
def processTag : IO String := do
  let status ← (IO.FS.readFile "/proc/self/stat").toBaseIO
  match status with
  | .ok text => return String.ofList (text.toList.takeWhile Char.isDigit)
  | .error _ => return toString (← IO.monoNanosNow)

end BootImage

open BootImage in
def main (arguments : List String) : IO UInt32 := do
  let environment : Environment :=
    { forceColour := ← IO.getEnv "FORCE_COLOR", noColour := ← IO.getEnv "NO_COLOR",
      log := ← IO.getEnv "RUST_LOG" }
  let termination ← runProgram (m := IO) (← processTag) environment arguments
  IO.eprint termination.errors
  IO.print termination.output
  return termination.exitCode
