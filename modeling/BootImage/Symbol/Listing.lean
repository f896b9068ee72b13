import BootImage.File.Error
import BootImage.Symbol.Table
import BootImage.Text.Lines

/-!
# Symbol listings

A listing is read line by line.  The first line that is not UTF-8, or whose address is malformed, decides the
error; lines are counted from one, skipped ones included.
-/

namespace BootImage

inductive ListingError
  | unreadable (error : FileError)
  | badAddress (line : Nat) (error : AddressError)
  deriving DecidableEq, Repr

def ListingError.messages : ListingError → List String
  | .unreadable error => ["Failed to read symbol table: " ++ error.description]
  | .badAddress line error => [s!"Line {line}", error.message]

namespace Listing

/-- The record on the line with the given number, or nothing if the line is to be skipped. -/
def readLine (number : Nat) (line : Bytes) : Except ListingError (Option Record) :=
  match decodeText? line with
  | none => .error (.unreadable .invalidText)
  | some text => (Record.ofLine text).mapError (.badAddress number)

def numbered (bytes : Bytes) : List (Bytes × Nat) := (lines bytes).zipIdx 1

/-- What each line of a listing holds, unless one of them is faulty. -/
def entries (bytes : Bytes) : Except ListingError (List (Option Record)) :=
  (numbered bytes).mapM fun (line, number) => readLine number line

def records (bytes : Bytes) : Except ListingError (List Record) := (entries bytes).map (List.filterMap id)

def table (bytes : Bytes) : Except ListingError SymbolTable := (records bytes).map SymbolTable.ofRecords

def skippedText? (number : Nat) (line : Bytes) : Option String :=
  match readLine number line with
  | .ok none => decodeText? line
  | _ => none

/-- The skipped lines before the first faulty one, with their numbers. -/
def skipped (bytes : Bytes) : List (Nat × String) :=
  ((numbered bytes).takeWhile fun (line, number) => (readLine number line).isOk).filterMap
    fun (line, number) => (skippedText? number line).map (number, ·)

end Listing

end BootImage
