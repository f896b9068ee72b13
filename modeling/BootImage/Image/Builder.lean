import BootImage.Image.Section

/-!
# Building an image

A builder starts from the image header, packs sections in call order, and is finished by zeros and a checksum
byte that fill the last block of sixteen bytes.  A section that is refused leaves the builder as it was.
Packing checks for overflow, which stops the run.
-/

namespace BootImage

/-- The checksum byte is the last of a block of this many bytes. -/
def blockSize : Nat := 16

/-- The fewest zeros that make `size` bytes and a checksum byte fill whole blocks. -/
def tailPadding (size : Nat) : Nat := (blockSize - (size + 1) % blockSize) % blockSize

structure Builder where
  contents : Bytes
  tally : Tally := {}
  deriving DecidableEq, Repr

structure CompleteImage where
  contents : Bytes
  checksum : UInt8
  deriving DecidableEq, Repr

namespace Builder

def start (header : Header) : Builder := { contents := header.encode }

/-- Packs a section in place: a failure leaves what was written up to it. -/
def packInPlace (s : Section) : EStateM PackFailure Builder Unit := fun b =>
  match s.write .checked b.tally b.contents with
  | .ok tally contents => .ok () ⟨contents, tally⟩
  | .error e contents => .error e { b with contents }

def pack (b : Builder) (s : Section) : Except PackFailure Builder :=
  match packInPlace s b with
  | .ok () packed => .ok packed
  | .error e _ => .error e

def packAll (b : Builder) (sections : List Section) : Except PackFailure Builder := sections.foldlM pack b

def complete (b : Builder) : CompleteImage :=
  ⟨b.contents ++ List.replicate (tailPadding b.contents.length) 0 ++ [b.tally.checksum], b.tally.checksum⟩

end Builder

end BootImage
