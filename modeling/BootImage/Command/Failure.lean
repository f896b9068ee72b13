import BootImage.File.Write
import BootImage.Image.Verify
import BootImage.Layout
import BootImage.Log.Logged
import BootImage.Symbol.Listing

/-!
# Failures of the commands
-/

namespace BootImage

inductive Failure
  | unopened (path : Path) (error : FileError)
  | unreadable (path : Path) (error : FileError)
  | listing (path : Path) (error : ListingError)
  | emptyListing (path : Path)
  | layout (path : Path) (missing : Mark)
  | packing (error : PackFailure)
  | write (error : AtomicWriteFailure)
  | undecodable (path : Path) (error : DecodeError)
  | unsound (path : Path) (error : VerifyError)
  deriving DecidableEq, Repr

namespace Failure

def messages : Failure → List String
  | .unopened path error => [s!"Failed to open file '{path.text}'", error.message]
  | .unreadable path error => [s!"Failed to read file '{path.text}'", error.message]
  | .listing path error => s!"Failed to parse symbol table '{path.text}'" :: error.messages
  | .emptyListing path => [s!"Symbol table '{path.text}' is empty"]
  | .layout path missing => [s!"Invalid symbol table '{path.text}'", missing.missingMessage]
  | .packing error => [error.message]
  | .write error => error.messages
  | .undecodable path error => [s!"Failed to parse image '{path.text}'", error.message]
  | .unsound path error => [s!"Image '{path.text}' failed verification", error.message]

def indentLines (indent : String) (text : String) : String :=
  String.ofList (text.toList.flatMap fun c => if c = '\n' then '\n' :: indent.toList else [c])

/-- The causes of a failure, numbered from zero if there is more than one. -/
def causeLines : List String → String
  | [] => ""
  | [cause] => "\n\nCaused by:\n    " ++ indentLines "    " cause
  | causes =>
    "\n\nCaused by:" ++ String.join (causes.zipIdx.map fun (cause, number) =>
      s!"\n    {number}: " ++ indentLines "       " cause)

def render (f : Failure) : String :=
  match f.messages with
  | [] => ""
  | outer :: causes => outer ++ causeLines causes

/-- An overflow ends the process in the middle of its work. -/
def exitCode : Failure → UInt32
  | .packing .overflow => 101
  | _ => 1

def report (f : Failure) : String :=
  match f with
  | .packing .overflow => f.render ++ "\n"
  | _ => "Failed: " ++ f.render ++ "\n"

end Failure

/-- What a command leaves behind, apart from the files it writes. -/
structure Outcome where
  events : List Event
  output : Styled := []
  failure : Option Failure := none

end BootImage
