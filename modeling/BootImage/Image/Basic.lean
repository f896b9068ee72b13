import BootImage.Image.Builder

/-!
# Images

An image is its header, its segments, the padding behind them and the checksum byte at its end.
`Image.encode` writes these parts one after the other; every other quantity (offsets, size, the checksum the
segments call for) is derived from them.
-/

namespace BootImage

structure Image where
  header : Header
  segments : List Segment
  /-- What stands between the last segment and the checksum byte. -/
  padding : Bytes
  checksum : UInt8
  deriving DecidableEq, Repr

namespace Image

def encode (i : Image) : Bytes :=
  i.header.encode ++ i.segments.flatMap Segment.encode ++ i.padding ++ [i.checksum]

def extent : List Segment → Nat
  | [] => 0
  | s :: rest => s.extent + extent rest

def dataEnd (i : Image) : Nat := Header.size + extent i.segments

def size (i : Image) : Nat := i.dataEnd + i.padding.length + 1

def computedChecksum (i : Image) : UInt8 := xorSum checksumStart (i.segments.flatMap Segment.data)

def placeFrom (offset : Nat) : List Segment → List (Nat × Segment)
  | [] => []
  | s :: rest => (offset + SegmentHeader.size, s) :: placeFrom (offset + s.extent) rest

/-- The segments, each with the offset of its data in the image. -/
def placements (i : Image) : List (Nat × Segment) := placeFrom Header.size i.segments

theorem length_flatMap_encode (segments : List Segment) :
    (segments.flatMap Segment.encode).length = extent segments := by
  induction segments with
  | nil => rfl
  | cons s rest ih => simp only [List.flatMap_cons, List.length_append, Segment.length_encode, ih, extent]

@[simp] theorem length_encode (i : Image) : i.encode.length = i.size := by
  simp only [encode, size, dataEnd, List.length_append, Header.length_encode, length_flatMap_encode,
    List.length_singleton]

end Image

end BootImage
