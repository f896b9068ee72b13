import BootImage.Numeral
import BootImage.Text.Blank

/-!
# Symbol records

A line of a symbol listing is a record if it consists of three words: a hexadecimal address, a single letter
for the kind, and a name.  Any other line is skipped.  A line of that form whose address is no numeral is an
error.
-/

namespace BootImage

inductive Kind
  /-- A global symbol in the text section, letter `T`. -/
  | text
  /-- An absolute symbol, as a linker script defines it, letter `A`. -/
  | absolute
  | other (letter : Char)
  deriving DecidableEq, Repr

namespace Kind

def ofLetter (c : Char) : Kind := if c = 'T' then .text else if c = 'A' then .absolute else .other c

def letter : Kind → Char
  | .text => 'T'
  | .absolute => 'A'
  | .other c => c

end Kind

structure Record where
  name : String
  kind : Kind
  address : UInt32
  deriving DecidableEq, Repr

structure AddressError where
  text : String
  fault : Numeral.Fault
  deriving DecidableEq, Repr

def AddressError.message (e : AddressError) : String :=
  s!"Invalid symbol address '{e.text}': {e.fault.message}"

/-- The record on a line, or nothing if the line is not of a record's form. -/
def Record.ofLine (line : String) : Except AddressError (Option Record) :=
  match words line.toList with
  | [address, [kind], name] =>
    match Numeral.read 16 address with
    | .ok a => .ok (some ⟨String.ofList name, .ofLetter kind, a⟩)
    | .error fault => .error ⟨String.ofList address, fault⟩
  | _ => .ok none

end BootImage
