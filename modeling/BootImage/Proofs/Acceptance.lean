import BootImage.Image.Verify
import BootImage.Proofs.Alignment
import BootImage.Proofs.Walk

/-!
# The files that are accepted

A file is accepted if it decodes to an image that verifies.

* (images) An image verifies exactly when its padding and checksum are the ones that its header and segments
  call for: `Image.verify_eq_ok_iff`.
* (files) A file is accepted exactly when it is written by the grammar of images, in one way only, and
  decoding reports the header, the segments and the offsets of this way: `Image.accepted_iff_written`.
-/

namespace BootImage

namespace Image

/-- The file decodes to an image that verifies. -/
def Accepted (bytes : Bytes) : Prop := ∃ i, decode bytes = .ok i ∧ i.verify = .ok ()

/-- The image with the padding and the checksum that its header and segments call for. -/
def closed (h : Header) (segments : List Segment) : Image :=
  ⟨h, segments, List.replicate (tailPadding (Header.size + extent segments)) 0,
    xorSum checksumStart (segments.flatMap Segment.data)⟩

/-! ### Images that verify -/

private theorem any_ne_zero {padding : Bytes} :
    padding.any (· ≠ 0) = false ↔ padding = List.replicate padding.length 0 := by
  rw [List.any_eq_false, List.eq_replicate_iff]
  simp

/-- The four checks. -/
theorem verify_iff_checks {i : Image} :
    i.verify = .ok () ↔ i.size % blockSize = 0 ∧ i.checksumOffset = i.size - 1 ∧
      i.padding = List.replicate i.padding.length 0 ∧ i.checksum = i.computedChecksum := by
  rw [← any_ne_zero, verify]
  generalize i.padding.any (· ≠ 0) = dirty
  by_cases hsize : i.size % blockSize = 0
  · by_cases hplace : i.checksumOffset = i.size - 1
    · cases dirty
      · by_cases hsum : i.checksum = i.computedChecksum <;> simp [hsize, hplace, hsum]
      · simp [hsize, hplace]
    · simp [hsize, hplace]
  · simp [hsize]

/-- The checks of size and place are one condition on the length of the padding. -/
theorem length_padding_iff {i : Image} :
    (i.size % blockSize = 0 ∧ i.checksumOffset = i.size - 1) ↔ i.padding.length = tailPadding i.dataEnd := by
  have hoffset : i.checksumOffset = i.dataEnd / 16 * 16 + 15 := or_fifteen _
  have hadd := add_tailPadding i.dataEnd
  rw [hoffset, size, blockSize]
  omega

theorem verify_eq_ok_iff {i : Image} : i.verify = .ok () ↔ i = closed i.header i.segments := by
  rw [verify_iff_checks, ← and_assoc, length_padding_iff]
  constructor
  · rintro ⟨hlength, hpadding, hsum⟩
    rw [hlength] at hpadding
    obtain ⟨header, segments, padding, checksum⟩ := i
    simp only at hpadding hsum
    rw [closed, hpadding, hsum]
    rfl
  · intro h
    have hlength : i.padding.length = tailPadding i.dataEnd := by
      rw [h]
      exact List.length_replicate
    refine ⟨hlength, ?_, ?_⟩
    · rw [hlength, h]
      rfl
    · rw [h]
      rfl

theorem verify_closed (h : Header) (segments : List Segment) : (closed h segments).verify = .ok () :=
  verify_eq_ok_iff.2 rfl

theorem decode_closed {h : Header} {segments : List Segment} (hallowed : Allowed h segments) :
    decode (closed h segments).encode = .ok (closed h segments) :=
  decode_eq_ok_iff.2 ⟨rfl, hallowed, stops_zeros _ _⟩

theorem accepted_iff {bytes : Bytes} :
    Accepted bytes ↔ ∃ h segments, Allowed h segments ∧ bytes = (closed h segments).encode := by
  constructor
  · rintro ⟨i, hdecode, hverify⟩
    obtain ⟨rfl, hread⟩ := decode_eq_ok_iff.1 hdecode
    exact ⟨i.header, i.segments, hread.toAllowed, congrArg encode (verify_eq_ok_iff.1 hverify)⟩
  · rintro ⟨h, segments, hallowed, rfl⟩
    exact ⟨closed h segments, decode_closed hallowed, verify_closed _ _⟩

/-! ### The grammar of images -/

def body (h : Header) (segments : List Segment) : Bytes :=
  h.encode ++ segments.flatMap fun s =>
    wordBytes s.loadAddress ++ wordBytes (UInt32.ofNat s.data.length) ++ s.data

/-- The grammar: at most as many segments as the format byte says, none of them empty, the fewest zeros that
leave room for one byte in the last block, and the checksum of the segments' data in this byte. -/
structure Written (h : Header) (segments : List Segment) (bytes : Bytes) : Prop where
  magic : h.magic = 0xE9
  count : segments.length ≤ h.format.toNat
  data : ∀ s ∈ segments, s.data ≠ [] ∧ s.data.length < 2 ^ 32
  parts : ∃ zeros, IsLeast {n | ((body h segments).length + n) % 16 = 15} zeros ∧
    bytes = body h segments ++ List.replicate zeros 0 ++ [xorSum 0xEF (segments.flatMap Segment.data)]

theorem extent_append (a b : List Segment) : extent (a ++ b) = extent a + extent b := by
  rw [← length_flatMap_encode, List.flatMap_append, List.length_append, length_flatMap_encode,
    length_flatMap_encode]

theorem length_body (h : Header) (segments : List Segment) :
    (body h segments).length = Header.size + extent segments := by
  rw [body, List.length_append, Header.length_encode, ← length_flatMap_encode]
  rfl

theorem flatMap_encode_split (segments : List Segment) (count : Nat) :
    segments.flatMap Segment.encode =
      (segments.take count).flatMap Segment.encode ++ (segments.drop count).flatMap Segment.encode := by
  rw [← List.flatMap_append, List.take_append_drop]

/-- The file up to the header of one of the segments, and behind it. -/
theorem encode_eq_body_append (i : Image) (count : Nat) :
    i.encode = body i.header (i.segments.take count) ++
      ((i.segments.drop count).flatMap Segment.encode ++ i.padding) ++ [i.checksum] := by
  have hbody : body i.header (i.segments.take count) =
      i.header.encode ++ (i.segments.take count).flatMap Segment.encode := rfl
  rw [encode, flatMap_encode_split i.segments count, hbody]
  simp only [List.append_assoc]

theorem encode_closed (h : Header) (segments : List Segment) :
    (closed h segments).encode = body h segments ++ List.replicate (tailPadding (body h segments).length) 0 ++
      [xorSum 0xEF (segments.flatMap Segment.data)] := by
  rw [length_body]
  rfl

private theorem written_iff {h : Header} {segments : List Segment} {bytes : Bytes} :
    Written h segments bytes ↔ Allowed h segments ∧ bytes = (closed h segments).encode := by
  have hleast := isLeast_tailPadding (body h segments).length
  rw [encode_closed]
  constructor
  · rintro ⟨hmagic, hcount, hsegments, zeros, hzeros, hbytes⟩
    rw [hzeros.unique hleast] at hbytes
    exact ⟨⟨hmagic, hcount, hsegments⟩, hbytes⟩
  · rintro ⟨⟨hmagic, hcount, hsegments⟩, hbytes⟩
    exact ⟨hmagic, hcount, hsegments, _, hleast, hbytes⟩

/-- A file is written in one way only. -/
theorem Written.unique {h h' : Header} {segments segments' : List Segment} {bytes : Bytes}
    (hw : Written h segments bytes) (hw' : Written h' segments' bytes) : h' = h ∧ segments' = segments := by
  obtain ⟨hallowed, rfl⟩ := written_iff.1 hw
  obtain ⟨hallowed', hbytes⟩ := written_iff.1 hw'
  have hdecode := decode_closed hallowed
  rw [hbytes, decode_closed hallowed', Except.ok.injEq] at hdecode
  exact ⟨congrArg header hdecode, congrArg Image.segments hdecode⟩

private theorem placeFrom_eq_mapIdx (offset : Nat) (segments : List Segment) :
    placeFrom offset segments = segments.mapIdx fun k s => (offset + extent (segments.take k) + 8, s) := by
  induction segments generalizing offset with
  | nil => rfl
  | cons s rest ih =>
    rw [placeFrom, ih, List.mapIdx_cons]
    simp only [List.take_zero, List.take_succ_cons, extent, Nat.add_assoc, SegmentHeader.size, Nat.zero_add]

/-- Each segment's data stand behind the header, the segments before it and its own segment header. -/
theorem placements_eq_mapIdx (i : Image) :
    i.placements = i.segments.mapIdx fun k s => ((body i.header (i.segments.take k)).length + 8, s) := by
  simp only [length_body]
  exact placeFrom_eq_mapIdx Header.size i.segments

theorem getLast?_encode (i : Image) : i.encode.getLast? = some i.checksum := by
  rw [encode, List.getLast?_concat]

/-- A file is accepted exactly when it is written by the grammar; then it is written in one way only, and
decoding reports this way. -/
theorem accepted_iff_written (bytes : Bytes) :
    (Accepted bytes ↔ ∃ h segments, Written h segments bytes) ∧
      ∀ i, decode bytes = .ok i → i.verify = .ok () →
        (∀ h segments, Written h segments bytes ↔ h = i.header ∧ segments = i.segments) ∧
        (i.placements = i.segments.mapIdx fun k s => ((body i.header (i.segments.take k)).length + 8, s)) ∧
        (∀ p ∈ i.placements, (bytes.drop p.1).take p.2.data.length = p.2.data) ∧
        i.dataEnd = (body i.header i.segments).length ∧ i.size = bytes.length ∧
        bytes.getLast? = some i.checksum ∧ i.checksum = i.computedChecksum ∧
        i.computedChecksum = xorSum 0xEF (i.segments.flatMap Segment.data) := by
  refine ⟨?_, ?_⟩
  · simp only [accepted_iff, written_iff]
  · intro i hdecode hverify
    obtain ⟨rfl, hread⟩ := decode_eq_ok_iff.1 hdecode
    have hclosed := verify_eq_ok_iff.1 hverify
    have hwritten : Written i.header i.segments i.encode :=
      written_iff.2 ⟨hread.toAllowed, congrArg encode hclosed⟩
    refine ⟨?_, placements_eq_mapIdx i, slice_placements i, (length_body _ _).symm, (length_encode i).symm,
      getLast?_encode i, (verify_iff_checks.1 hverify).2.2.2, rfl⟩
    intro h segments
    constructor
    · exact hwritten.unique
    · rintro ⟨rfl, rfl⟩
      exact hwritten

/-- The file of an image with one segment. -/
theorem accepted_iff_written_four :
    let i : Image := ⟨{ entry := 0x100 }, [⟨0x2000, [9, 8, 7, 0]⟩], List.replicate 11 0, 0xE9⟩
    decode i.encode = .ok i ∧ i.verify = .ok () ∧ Written i.header i.segments i.encode ∧
      i.placements = i.segments.mapIdx fun k s => ((body i.header (i.segments.take k)).length + 8, s) := by
  intro i
  have hdecode : decode i.encode = .ok i := by decide
  have hverify : i.verify = .ok () := by decide
  obtain ⟨hwritten, hplacements, -⟩ := (accepted_iff_written i.encode).2 i hdecode hverify
  exact ⟨hdecode, hverify, (hwritten _ _).2 ⟨rfl, rfl⟩, hplacements⟩

end Image

end BootImage
