import BootImage.Bytes

/-!
# The headers of a boot image

An image starts with eight bytes: a magic number, a format byte (the number of segments the boot loader
walks), two reserved bytes and the entry address.  Each segment has eight bytes of its own: its load address
and length.  For both, `decode?` takes the header off the front of a byte list and undoes `encode`.
-/

namespace BootImage

def imageMagic : UInt8 := 0xE9

structure Header where
  magic : UInt8 := imageMagic
  format : UInt8 := 2
  reserved : UInt8 × UInt8 := (0, 0)
  entry : UInt32
  deriving DecidableEq, Repr

namespace Header

def size : Nat := 8

def encode (h : Header) : Bytes :=
  h.magic :: h.format :: h.reserved.1 :: h.reserved.2 :: wordBytes h.entry

def decode? : Bytes → Option (Header × Bytes)
  | magic :: format :: r₀ :: r₁ :: e₀ :: e₁ :: e₂ :: e₃ :: rest =>
    some (⟨magic, format, (r₀, r₁), word e₀ e₁ e₂ e₃⟩, rest)
  | _ => none

@[simp] theorem length_encode (h : Header) : h.encode.length = size := rfl

theorem decode?_encode (h : Header) (rest : Bytes) : decode? (h.encode ++ rest) = some (h, rest) := by
  simp [encode, decode?, wordBytes, word_wordBytes]

theorem eq_encode_of_decode? {bytes rest : Bytes} {h : Header} (e : decode? bytes = some (h, rest)) :
    bytes = h.encode ++ rest := by
  unfold decode? at e
  split at e
  · simp only [Option.some.injEq, Prod.mk.injEq] at e
    obtain ⟨rfl, rfl⟩ := e
    simp [encode, wordBytes_word]
  · contradiction

end Header

structure SegmentHeader where
  loadAddress : UInt32
  /-- The length of the segment's data, alignment padding included. -/
  length : UInt32
  deriving DecidableEq, Repr

namespace SegmentHeader

def size : Nat := 8

def encode (h : SegmentHeader) : Bytes := wordBytes h.loadAddress ++ wordBytes h.length

def decode? : Bytes → Option (SegmentHeader × Bytes)
  | a₀ :: a₁ :: a₂ :: a₃ :: l₀ :: l₁ :: l₂ :: l₃ :: rest => some (⟨word a₀ a₁ a₂ a₃, word l₀ l₁ l₂ l₃⟩, rest)
  | _ => none

@[simp] theorem length_encode (h : SegmentHeader) : h.encode.length = size := rfl

theorem decode?_encode (h : SegmentHeader) (rest : Bytes) : decode? (h.encode ++ rest) = some (h, rest) := by
  simp [encode, decode?, wordBytes, word_wordBytes]

theorem eq_encode_of_decode? {bytes rest : Bytes} {h : SegmentHeader} (e : decode? bytes = some (h, rest)) :
    bytes = h.encode ++ rest := by
  unfold decode? at e
  split at e
  · simp only [Option.some.injEq, Prod.mk.injEq] at e
    obtain ⟨rfl, rfl⟩ := e
    simp [encode, wordBytes_word]
  · contradiction

end SegmentHeader

end BootImage
