import BootImage.Alignment
import BootImage.Image.Header
import BootImage.Text.Hex

/-!
# Sections and the segments made of them

A section is a named run of bytes with the address it is loaded at.  In the image it becomes a segment: its
bytes, filled up with zeros to a multiple of its alignment, behind a segment header.  An empty section leaves
no trace.
-/

namespace BootImage

structure Section where
  name : String
  loadAddress : UInt32
  contents : Bytes
  /-- Whether the section's bytes enter the image's checksum. -/
  checksummed : Bool := true
  deriving DecidableEq, Repr

structure Oversize where
  name : String
  size : Nat
  deriving DecidableEq, Repr

def Oversize.message (o : Oversize) : String := s!"Segment '{o.name}' is too large ({hexSize o.size} bytes)"

/-- Why packing a section does not succeed: the section is refused, or the whole run stops at an overflow. -/
inductive PackFailure
  | oversize (refused : Oversize)
  | overflow
  deriving DecidableEq, Repr

def PackFailure.message : PackFailure → String
  | .oversize refused => refused.message
  | .overflow => "attempt to add with overflow"

def orStop {α : Type} (result : Option α) : Except PackFailure α := result.elim (.error .overflow) .ok

@[simp] theorem orStop_some {α : Type} (value : α) : orStop (some value) = .ok value := rfl

@[simp] theorem orStop_none {α : Type} : orStop (none : Option α) = .error .overflow := rfl

def sectionAlignment (checksummed : Bool) : UInt32 := if checksummed then 4 else 16

/-- The length in the image of a section of `size` bytes, unless rounding it up would leave a word. -/
def paddedLength (a : Arithmetic) (name : String) (checksummed : Bool) (size : Nat) :
    Except PackFailure UInt32 := do
  let alignment := sectionAlignment checksummed
  -- the bound leaves room for `alignment - 1` bytes, but rounding up adds one more before it takes it away
  let largest ← orStop (a.sub 0xFFFFFFFF (← orStop (a.sub alignment 1)))
  if size ≤ largest.toNat then orStop (roundUp a (UInt32.ofNat size) alignment)
  else .error (.oversize ⟨name, size⟩)

/-- A segment as it stands in an image: its data includes the alignment padding. -/
structure Segment where
  loadAddress : UInt32
  data : Bytes
  deriving DecidableEq, Repr

namespace Segment

def header (s : Segment) : SegmentHeader := ⟨s.loadAddress, UInt32.ofNat s.data.length⟩

def encode (s : Segment) : Bytes := s.header.encode ++ s.data

def extent (s : Segment) : Nat := SegmentHeader.size + s.data.length

@[simp] theorem length_encode (s : Segment) : s.encode.length = s.extent := by
  simp [encode, extent]

end Segment

def checksumStart : UInt8 := 0xEF

structure Tally where
  checksum : UInt8 := checksumStart
  /-- The number of alignment bytes added to checksummed sections. -/
  padding : UInt32 := 0
  deriving DecidableEq, Repr

/-- Enters a checksummed segment's bytes and the number of its alignment bytes. -/
def Tally.enter (a : Arithmetic) (t : Tally) (data : Bytes) (padding : UInt64) :
    Except PackFailure Tally := do
  return ⟨xorSum t.checksum data, ← orStop (a.add t.padding padding.toUInt32)⟩

namespace Section

def alignment (s : Section) : UInt32 := sectionAlignment s.checksummed

def paddedLength (a : Arithmetic) (s : Section) : Except PackFailure UInt32 :=
  BootImage.paddedLength a s.name s.checksummed s.contents.length

/-- Writes the section at the end of a buffer, and gives the tally after it. -/
def write (a : Arithmetic) (s : Section) (tally : Tally) : EStateM PackFailure Bytes Tally := do
  if s.contents.isEmpty then return tally
  let length ← ofExcept (s.paddedLength a)
  let padding ← ofExcept (orStop (a.subSize length.toUInt64 (UInt64.ofNat s.contents.length)))
  modify (· ++ SegmentHeader.encode ⟨s.loadAddress, length⟩)
  let start := (← get).length
  modify (· ++ s.contents)
  modify (resize · (start + length.toNat))
  if s.checksummed then ofExcept (tally.enter a ((← get).drop start) padding) else return tally

def pack (s : Section) (tally : Tally) : Except PackFailure (Bytes × Tally) :=
  match s.write .checked tally [] with
  | .ok tally added => .ok (added, tally)
  | .error e _ => .error e

end Section

end BootImage
