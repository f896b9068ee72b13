import BootImage.Text.Quoted

/-!
# Failures of file operations

A failure is one that the operating system reports, with its number and text, or one found before or after
asking it: a path with a NUL byte, or contents that are not text.
-/

namespace BootImage

inductive SystemFault
  | notFound
  | alreadyExists
  | notDirectory
  | isDirectory
  | nameTooLong
  | busy
  | other (code : Nat) (text : String)
  deriving DecidableEq, Repr

namespace SystemFault

def code : SystemFault → Nat
  | .notFound => 2
  | .busy => 16
  | .alreadyExists => 17
  | .notDirectory => 20
  | .isDirectory => 21
  | .nameTooLong => 36
  | .other code _ => code

def text : SystemFault → String
  | .notFound => "No such file or directory"
  | .busy => "Device or resource busy"
  | .alreadyExists => "File exists"
  | .notDirectory => "Not a directory"
  | .isDirectory => "Is a directory"
  | .nameTooLong => "File name too long"
  | .other _ text => text

def known : List SystemFault := [.notFound, .busy, .alreadyExists, .notDirectory, .isDirectory, .nameTooLong]

/-- The fault with the given number; the text is for a number that is not known. -/
def ofCode (code : Nat) (text : String) : SystemFault :=
  (known.find? fun f => f.code = code).getD (.other code text)

def kind : SystemFault → String
  | .notFound => "NotFound"
  | .busy => "ResourceBusy"
  | .alreadyExists => "AlreadyExists"
  | .notDirectory => "NotADirectory"
  | .isDirectory => "IsADirectory"
  | .nameTooLong => "InvalidFilename"
  | .other _ _ => "Uncategorized"

end SystemFault

inductive FileError
  | system (fault : SystemFault)
  | nulInPath
  | invalidText
  deriving DecidableEq, Repr

namespace FileError

def kind : FileError → String
  | .system fault => fault.kind
  | .nulInPath => "InvalidInput"
  | .invalidText => "InvalidData"

def message : FileError → String
  | .system fault => s!"{fault.text} (os error {fault.code})"
  | .nulInPath => "file name contained an unexpected NUL byte"
  | .invalidText => "stream did not contain valid UTF-8"

def description : FileError → String
  | .system fault => s!"Os \x7b code: {fault.code}, kind: {fault.kind}, message: {quoted fault.text} \x7d"
  | e => s!"Error \x7b kind: {e.kind}, message: {quoted e.message} \x7d"

end FileError

end BootImage
