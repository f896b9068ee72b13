import BootImage.Image.Decode

/-!
# Verifying an image

An image is sound if its size is a whole number of blocks, its checksum byte is the last byte of the block
that the last segment ends in, its padding is all zeros, and its checksum is the one its segments call for.
The first of these that fails is reported.
-/

namespace BootImage

inductive VerifyError
  | unalignedSize (size : Nat)
  | misplacedChecksum (offset expected : Nat)
  | dirtyPadding
  | checksumMismatch (stored computed : UInt8)
  deriving DecidableEq, Repr

def VerifyError.message : VerifyError → String
  | .unalignedSize size => s!"Image length {hexSize size} is not a multiple of {blockSize}"
  | .misplacedChecksum offset expected =>
    s!"Checksum byte at {hexSize offset} is not where the boot ROM expects it ({hexSize expected})"
  | .dirtyPadding => "Non-zero bytes in final padding"
  | .checksumMismatch stored computed =>
    s!"Checksum mismatch: stored {hexByte stored}, computed {hexByte computed}"

namespace Image

/-- Where the boot loader looks for the checksum: at the end of the block containing the last segment. -/
def checksumOffset (i : Image) : Nat := i.dataEnd ||| (blockSize - 1)

def verify (i : Image) : Except VerifyError Unit :=
  if i.size % blockSize ≠ 0 then .error (.unalignedSize i.size)
  else if i.checksumOffset ≠ i.size - 1 then .error (.misplacedChecksum (i.size - 1) i.checksumOffset)
  else if i.padding.any (· ≠ 0) then .error .dirtyPadding
  else if i.checksum ≠ i.computedChecksum then .error (.checksumMismatch i.checksum i.computedChecksum)
  else .ok ()

end Image

end BootImage
