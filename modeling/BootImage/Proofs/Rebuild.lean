import BootImage.Proofs.RoundTrip

/-!
# Building an accepted file again

An accepted file holds nothing but what decoding reports.  Packing the segments that it was decoded to, each
as a checksummed section, gives the file back byte by byte, if the lengths of the segments are multiples of
four and none is so long that rounding it up overflows: `Image.exists_complete_eq`.
-/

namespace BootImage

private theorem leastMultiple_of_dvd {alignment size : Nat} (hpos : 0 < alignment) (h : alignment ∣ size) :
    leastMultiple alignment size = size := by
  apply (isLeast_leastMultiple hpos size).unique
  refine ⟨⟨h, Nat.le_refl size⟩, ?_⟩
  rintro n ⟨-, hn⟩
  exact hn

namespace Segment

def toSection (s : Segment) (name : String) : Section :=
  { name, loadAddress := s.loadAddress, contents := s.data }

variable {s : Segment}

/-- The last length of a word that is a multiple of four is the longest that is not refused. -/
private theorem not_tooLong_toSection (hs : s.Loadable) (haligned : 4 ∣ s.data.length) (name : String) :
    ¬(s.toSection name).TooLong := by
  show ¬2 ^ 32 - 4 < s.data.length
  have hlength := hs.2
  omega

private theorem longest_toSection (name : String) :
    (s.toSection name).Longest ↔ s.data.length = 2 ^ 32 - 4 := Iff.rfl

private theorem fill_toSection (haligned : 4 ∣ s.data.length) (name : String) :
    (s.toSection name).fill = [] := by
  have hsize : (s.toSection name).paddedSize = s.data.length :=
    leastMultiple_of_dvd (toNat_sectionAlignment_pos true) haligned
  rw [Section.fill, hsize]
  show List.replicate (s.data.length - s.data.length) (0 : UInt8) = []
  rw [Nat.sub_self, List.replicate_zero]

private theorem filled_toSection (haligned : 4 ∣ s.data.length) (name : String) :
    (s.toSection name).filled = s := by
  rw [Section.filled, fill_toSection haligned, List.append_nil]
  rfl

end Segment

namespace Image

def toSections (i : Image) (name : Nat × Segment → String) : List Section :=
  i.placements.map fun p => p.2.toSection (name p)

variable {i : Image} {name : Nat × Segment → String}

private theorem mem_segments {p : Nat × Segment} (hp : p ∈ i.placements) : p.2 ∈ i.segments := by
  rw [← map_snd_placements]
  exact List.mem_map_of_mem hp

private theorem map_filled_toSections (haligned : ∀ s ∈ i.segments, 4 ∣ s.data.length) :
    (i.toSections name).map Section.filled = i.segments := by
  rw [toSections, List.map_map, ← map_snd_placements i]
  apply List.map_congr_left
  intro p hp
  exact Segment.filled_toSection (haligned p.2 (mem_segments hp)) (name p)

/-- The sections that are read off the file at the reported offsets. -/
private theorem toSections_eq (i : Image) (name : Nat × Segment → String) :
    i.toSections name = i.placements.map fun p =>
      { name := name p, loadAddress := p.2.loadAddress,
        contents := (i.encode.drop p.1).take p.2.data.length } := by
  apply List.map_congr_left
  intro p hp
  rw [slice_placements i p hp]
  rfl

private theorem totalFill_toSections (haligned : ∀ s ∈ i.segments, 4 ∣ s.data.length) :
    totalFill (i.toSections name) = 0 := by
  rw [totalFill, List.sum_eq_zero_iff_forall_eq_nat]
  intro n hn
  obtain ⟨s, hs, rfl⟩ := List.mem_map.1 hn
  obtain ⟨p, hp, rfl⟩ := List.mem_map.1 (List.mem_filter.1 hs).1
  rw [Segment.fill_toSection (haligned p.2 (mem_segments hp)), List.length_nil]

/-- All segments of an image that can be read go into a new builder, unless one is the longest that is not
refused. -/
private theorem exists_packAll_toSections_iff (name : Nat × Segment → String) (hread : i.Readable)
    (haligned : ∀ s ∈ i.segments, 4 ∣ s.data.length) :
    (∃ b, (Builder.start i.header).packAll (i.toSections name) = .ok b) ↔
      ∀ p ∈ i.placements, p.2.data.length ≠ 2 ^ 32 - 4 := by
  have hcount : totalFill (i.toSections name) < 2 ^ 32 := by
    rw [totalFill_toSections haligned]
    decide
  rw [Builder.exists_packAll_start_iff, and_iff_left hcount, toSections, List.forall_mem_map]
  refine forall₂_congr fun p hp => ?_
  have hshort :=
    Segment.not_tooLong_toSection (hread.loadable p.2 (mem_segments hp)) (haligned p.2 (mem_segments hp))
  rw [Section.fits_iff, Segment.longest_toSection, and_iff_right (hshort (name p))]

private theorem holds_toSections (hread : i.Readable) {b : Builder}
    (hpack : (Builder.start i.header).packAll (i.toSections name) = .ok b) :
    b.Holds i.header (i.toSections name) := by
  have hholds := (Builder.holds_start i.header).packAll hpack
  rwa [List.nil_append, List.filter_eq_self.2] at hholds
  intro s hs
  obtain ⟨p, hp, rfl⟩ := List.mem_map.1 hs
  simpa [Segment.toSection] using (hread.loadable p.2 (mem_segments hp)).1

/-- Packing the segments of an accepted file again, with the bytes that stand at their offsets, gives the
file.  Only a segment of the longest length that is not refused makes an overflow. -/
theorem exists_complete_eq {bytes : Bytes} (hdecode : decode bytes = .ok i) (hverify : i.verify = .ok ())
    (haligned : ∀ p ∈ i.placements, 4 ∣ p.2.data.length) (name : Nat × Segment → String) :
    let sections : List Section := i.placements.map fun p =>
      { name := name p, loadAddress := p.2.loadAddress, contents := (bytes.drop p.1).take p.2.data.length }
    ((∀ p ∈ i.placements, p.2.data.length ≠ 2 ^ 32 - 4) →
      ∃ b, (Builder.start i.header).packAll sections = .ok b ∧ b.complete.contents = bytes ∧
        b.complete.checksum = i.checksum) ∧
      ((∃ p ∈ i.placements, p.2.data.length = 2 ^ 32 - 4) →
        (Builder.start i.header).packAll sections = .error .overflow) := by
  obtain ⟨rfl, hread⟩ := decode_eq_ok_iff.1 hdecode
  intro sections
  have hsections : sections = i.toSections name := (toSections_eq i name).symm
  have haligned : ∀ s ∈ i.segments, 4 ∣ s.data.length := by
    intro s hs
    rw [← map_snd_placements] at hs
    obtain ⟨p, hp, rfl⟩ := List.mem_map.1 hs
    exact haligned p hp
  have hgoes := exists_packAll_toSections_iff name hread haligned
  rw [hsections]
  constructor
  · intro hshorter
    obtain ⟨b, hpack⟩ := hgoes.2 hshorter
    have hall : ∀ s ∈ i.toSections name, s.checksummed := by
      intro s hs
      obtain ⟨p, -, rfl⟩ := List.mem_map.1 hs
      rfl
    have hcomplete := (holds_toSections hread hpack).complete_eq hall
    -- lengths that are multiples of four need no zeros, so each section goes in as the segment it was
    rw [map_filled_toSections haligned, ← verify_eq_ok_iff.1 hverify] at hcomplete
    exact ⟨b, hpack, congrArg CompleteImage.contents hcomplete, congrArg CompleteImage.checksum hcomplete⟩
  · rintro ⟨p, hp, hlongest⟩
    have hshort : ∀ s ∈ i.toSections name, ¬s.TooLong := by
      intro s hs
      obtain ⟨q, hq, rfl⟩ := List.mem_map.1 hs
      exact Segment.not_tooLong_toSection (hread.loadable q.2 (mem_segments hq))
        (haligned q.2 (mem_segments hq)) _
    cases hpack : (Builder.start i.header).packAll (i.toSections name) with
    | error e => rw [Builder.eq_overflow_of_packAll hshort hpack]
    | ok b => exact absurd hlongest (hgoes.1 ⟨b, hpack⟩ p hp)

/-- A file whose header counts more segments than there are. -/
theorem exists_complete_eq_four :
    let i : Image := ⟨{ format := 7, reserved := (1, 2), entry := 0x100 }, [⟨0x2000, [9, 8, 7, 0]⟩],
      List.replicate 11 0, 0xE9⟩
    decode i.encode = .ok i ∧ i.verify = .ok () ∧ (∀ p ∈ i.placements, 4 ∣ p.2.data.length) ∧
      ∃ b, (Builder.start i.header).packAll
          [{ name := "0", loadAddress := 0x2000, contents := [9, 8, 7, 0] }] = .ok b ∧
        b.complete.contents = i.encode ∧ b.complete.checksum = 0xE9 := by
  intro i
  have hdecode : decode i.encode = .ok i := by decide
  have hverify : i.verify = .ok () := by decide
  have haligned : ∀ p ∈ i.placements, 4 ∣ p.2.data.length := by decide
  exact ⟨hdecode, hverify, haligned, (exists_complete_eq hdecode hverify haligned fun _ => "0").1 (by decide)⟩

/-- A file with one segment of the longest length that is not refused. -/
theorem packAll_longest :
    let longest : Section := { name := "0", loadAddress := 0x2000, contents := List.replicate (2 ^ 32 - 4) 1 }
    let i : Image := closed { entry := 0x100 } [⟨longest.loadAddress, longest.contents⟩]
    decode i.encode = .ok i ∧ i.verify = .ok () ∧ 4 ∣ longest.contents.length ∧
      (Builder.start i.header).packAll [longest] = .error .overflow := by
  intro longest i
  have hlength : longest.contents.length = 2 ^ 32 - 4 := List.length_replicate
  refine ⟨?_, verify_closed _ _, by rw [hlength]; decide, ?_⟩
  · apply decode_closed
    refine ⟨rfl, by decide, ?_⟩
    intro s hs
    rw [List.mem_singleton.1 hs]
    refine ⟨?_, ?_⟩
    · rw [← List.length_pos_iff, hlength]
      decide
    · rw [hlength]
      decide
  · have hlongest : longest.Longest := hlength
    rw [Builder.packAll, List.foldlM_cons, Builder.pack_eq, if_neg hlongest.not_tooLong,
      if_pos (Or.inl hlongest)]
    rfl

end Image

end BootImage
