import BootImage.Image.Basic

/-!
# Decoding an image

The boot loader takes segments off the bytes behind the header as long as the format byte allows another one,
a segment header fits before the checksum byte, and its length is not zero.  A segment that runs into the
checksum byte is an error.
-/

namespace BootImage

inductive DecodeError
  | tooSmall (size : Nat)
  | badMagic (magic : UInt8)
  /-- Segment number `index`, whose header is at `offset`, ends at `stop`, past the checksum byte at
  `limit`. -/
  | overrun (index offset stop limit : Nat)
  deriving DecidableEq, Repr

def DecodeError.message : DecodeError → String
  | .tooSmall size => s!"Image too small ({size} bytes)"
  | .badMagic magic => s!"Invalid image magic {hexByte magic} (expected {hexByte imageMagic})"
  | .overrun index offset stop limit =>
    s!"Segment {index} at offset {hexSize offset} overruns the image ({hexSize stop} > {hexSize limit})"

namespace Image

/-- Takes at most `more` segments off `rest`, which ends at the checksum byte's offset `limit`; also gives
what is left behind them.  The segments are numbered from `index` on. -/
def walk (limit index : Nat) : Nat → Bytes → Except DecodeError (List Segment × Bytes)
  | 0, rest => .ok ([], rest)
  | more + 1, rest =>
    match SegmentHeader.decode? rest with
    | none => .ok ([], rest)
    | some (h, body) =>
      if h.length = 0 then .ok ([], rest)
      else if h.length.toNat ≤ body.length then
        (walk limit (index + 1) more (body.drop h.length.toNat)).map fun (segments, padding) =>
          (⟨h.loadAddress, body.take h.length.toNat⟩ :: segments, padding)
      else
        let offset := limit - rest.length
        .error (.overrun index offset (offset + SegmentHeader.size + h.length.toNat) limit)

def decode (bytes : Bytes) : Except DecodeError Image :=
  match Header.decode? bytes with
  | none => .error (.tooSmall bytes.length)
  | some (header, behind) =>
    match behind.getLast? with
    | none => .error (.tooSmall bytes.length)
    | some checksum =>
      if header.magic = imageMagic then
        (walk (bytes.length - 1) 0 header.format.toNat behind.dropLast).map fun (segments, padding) =>
          ⟨header, segments, padding, checksum⟩
      else .error (.badMagic header.magic)

end Image

end BootImage
