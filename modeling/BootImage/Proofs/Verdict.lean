import BootImage.Proofs.RoundTrip

/-!
# The boot loader's verdict on a built image

A builder packs any number of sections and leaves those that are not checksummed out of the checksum; the boot
loader takes as many segments as the format byte says and sums up all of their data.

* (reading) Whatever sections went into a builder, its image decodes; the boot loader reads the first
  segments, as many as the format byte allows, and takes what is left for padding: `Image.decode_cut`.
* (the verdict) The image verifies exactly when no segment is left over and the bytes of the sections that are
  not checksummed cancel out: `Builder.Holds.verify_read_iff`, and `Builder.decode_complete` on the run as a
  whole.
-/

namespace BootImage

/-! ### Sums of bytes -/

theorem xorSum_eq_xor (start : UInt8) (bytes : Bytes) : xorSum start bytes = start ^^^ xorSum 0 bytes := by
  induction bytes generalizing start with
  | nil => simp
  | cons b bytes ih =>
    rw [xorSum_cons, xorSum_cons, ih (start ^^^ b), ih (0 ^^^ b), UInt8.zero_xor, UInt8.xor_assoc]

/-- The bytes of some of the pieces and those of the others make up the sum of all. -/
private theorem xorSum_flatMap_filter {α : Type} (start : UInt8) (f : α → Bytes) (p : α → Bool)
    (xs : List α) :
    xorSum start (xs.flatMap f) =
      xorSum start ((xs.filter p).flatMap f) ^^^ xorSum 0 ((xs.filter fun x => !p x).flatMap f) := by
  induction xs generalizing start with
  | nil => simp
  | cons x xs ih =>
    rw [List.flatMap_cons, xorSum_append, ih]
    cases hx : p x
    · rw [List.filter_cons_of_neg (by simp [hx]), List.filter_cons_of_pos (by simp [hx]), List.flatMap_cons,
        xorSum_append, xorSum_eq_xor (xorSum start (f x)), xorSum_eq_xor start (f x),
        xorSum_eq_xor (xorSum 0 (f x)), xorSum_eq_xor start]
      ac_rfl
    · rw [List.filter_cons_of_pos hx, List.filter_cons_of_neg (by simp [hx]), List.flatMap_cons,
        xorSum_append]

namespace Image

/-! ### Reading the first segments -/

/-- A segment is nothing that could be taken for padding: its length is not zero. -/
private theorem encode_append_ne_zeros {s : Segment} (h : s.Loadable) (rest : Bytes) (n : Nat) :
    s.encode ++ rest ≠ List.replicate n 0 := by
  intro hzeros
  have hlength := congrArg List.length hzeros
  rw [List.length_append, Segment.length_encode, Segment.extent, SegmentHeader.size,
    List.length_replicate] at hlength
  have hn : 8 ≤ n := by omega
  rw [← List.append_nil (List.replicate n 0)] at hzeros
  exact encode_append_ne_zeros_append h hn rest [] hzeros

/-- The image that the boot loader reads where these segments were written: the segments that the format byte
does not count go with the zeros behind them. -/
def cut (h : Header) (segments : List Segment) (zeros : Nat) (checksum : UInt8) : Image :=
  ⟨h, segments.take h.format.toNat,
    (segments.drop h.format.toNat).flatMap Segment.encode ++ List.replicate zeros 0, checksum⟩

private theorem encode_cut (h : Header) (segments : List Segment) (zeros : Nat) (checksum : UInt8) :
    (cut h segments zeros checksum).encode =
      h.encode ++ segments.flatMap Segment.encode ++ List.replicate zeros 0 ++ [checksum] := by
  rw [flatMap_encode_split segments h.format.toNat, encode, cut]
  simp only [List.append_assoc]

theorem decode_cut {h : Header} {segments : List Segment} (hmagic : h.magic = imageMagic)
    (hloadable : ∀ s ∈ segments, s.Loadable) (zeros : Nat) (checksum : UInt8) :
    decode (cut h segments zeros checksum).encode = .ok (cut h segments zeros checksum) := by
  refine decode_eq_ok_iff.2 ⟨rfl, ⟨hmagic, List.length_take_le _ _, ?_⟩, ?_⟩
  · intro s hs
    exact hloadable s (List.mem_of_mem_take hs)
  · -- either all segments that are allowed were read, or only the zeros are left
    show Stops (h.format.toNat - (segments.take h.format.toNat).length) _
    by_cases hcount : segments.length ≤ h.format.toNat
    · rw [cut, List.drop_of_length_le hcount]
      exact stops_zeros _ _
    · left
      rw [List.length_take]
      omega

/-- If the padding is clean, no segment is left over. -/
private theorem length_le_of_padding_cut {h : Header} {segments : List Segment}
    (hloadable : ∀ s ∈ segments, s.Loadable) {zeros n : Nat} {checksum : UInt8}
    (hclean : (cut h segments zeros checksum).padding = List.replicate n 0) :
    segments.length ≤ h.format.toNat := by
  rw [← List.drop_eq_nil_iff]
  cases hleft : segments.drop h.format.toNat with
  | nil => rfl
  | cons s rest =>
    have hs : s ∈ segments := List.mem_of_mem_drop (hleft ▸ List.mem_cons_self)
    rw [cut, hleft, List.flatMap_cons, List.append_assoc] at hclean
    exact absurd hclean (encode_append_ne_zeros (hloadable s hs) _ _)

end Image

namespace Builder

variable {header : Header} {packed : List Section} {b : Builder}

def read (b : Builder) (header : Header) (packed : List Section) : Image :=
  .cut header (packed.map Section.filled) (tailPadding b.contents.length) b.tally.checksum

private theorem Holds.encode_read (h : b.Holds header packed) :
    (b.read header packed).encode = b.complete.contents := by
  rw [read, Image.encode_cut, complete, h.contents_eq_body]
  rfl

private theorem Holds.decode_read (h : b.Holds header packed) (hmagic : header.magic = imageMagic)
    (hne : ∀ s ∈ packed, s.contents ≠ []) :
    Image.decode b.complete.contents = .ok (b.read header packed) := by
  rw [← h.encode_read]
  exact Image.decode_cut hmagic (h.loadable hne) _ _

/-- The stored checksum is the one that is called for exactly if the bytes left out of it cancel out. -/
private theorem Holds.checksum_eq_iff (h : b.Holds header packed) :
    b.tally.checksum = xorSum checksumStart ((packed.map Section.filled).flatMap Segment.data) ↔
      xorSum 0 ((packed.filter (!·.checksummed)).flatMap Section.contents) = 0 := by
  rw [h.checksum, xorSum_filled, xorSum_flatMap_filter checksumStart _ (·.checksummed) packed]
  generalize xorSum 0 _ = left
  show xorSum checksumStart _ = _ ↔ _
  constructor
  · intro hsum
    rw [← UInt8.xor_right_inj, UInt8.xor_zero, ← hsum]
  · rintro rfl
    rw [UInt8.xor_zero]

theorem Holds.verify_read_iff (h : b.Holds header packed) (hne : ∀ s ∈ packed, s.contents ≠ []) :
    (b.read header packed).verify = .ok () ↔ packed.length ≤ header.format.toNat ∧
      xorSum 0 ((packed.filter (!·.checksummed)).flatMap Section.contents) = 0 := by
  rw [← h.checksum_eq_iff, Image.verify_eq_ok_iff]
  constructor
  · intro hclosed
    have hcount := Image.length_le_of_padding_cut (h.loadable hne) (congrArg Image.padding hclosed)
    have hchecksum : b.tally.checksum = _ := congrArg Image.checksum hclosed
    rw [read, Image.cut, List.take_of_length_le hcount] at hchecksum
    rw [List.length_map] at hcount
    exact ⟨hcount, hchecksum⟩
  · rintro ⟨hcount, hchecksum⟩
    have hcount : (packed.map Section.filled).length ≤ header.format.toNat := by rwa [List.length_map]
    have hsize := Image.length_body header (packed.map Section.filled)
    rw [← h.contents_eq_body] at hsize
    rw [read, Image.cut, List.take_of_length_le hcount, List.drop_of_length_le hcount, hchecksum, hsize]
    rfl

/-- Whatever sections are packed, with or without checksum, the image decodes, and the first non-empty
sections are read from it, as many as the format byte allows. It verifies exactly if these are all, and the
bytes of the sections that are not checksummed cancel out. -/
theorem decode_complete {header : Header} (hmagic : header.magic = 0xE9) {sections : List Section}
    {b : Builder} (hpack : (start header).packAll sections = .ok b) :
    let present := sections.filter (!·.contents.isEmpty)
    ∃ i, Image.decode b.complete.contents = .ok i ∧ i.header = header ∧
      List.Forall₂ (Image.Shows b.complete.contents) i.placements (present.take header.format.toNat) ∧
      (i.verify = .ok () ↔ present.length ≤ header.format.toNat ∧
        xorSum 0 ((present.filter (!·.checksummed)).flatMap Section.contents) = 0) ∧
      (header.format.toNat < present.length → ¬Image.Accepted b.complete.contents) := by
  intro present
  have hholds : b.Holds header present := (holds_start header).packAll hpack
  have hne : ∀ s ∈ present, s.contents ≠ [] := by
    intro s hs
    simpa using (List.mem_filter.1 hs).2
  have hdecode := hholds.decode_read hmagic hne
  have hverify := hholds.verify_read_iff hne
  refine ⟨_, hdecode, rfl, ?_, hverify, ?_⟩
  · apply Image.forall₂_shows
    · rw [Image.map_snd_placements, List.map_take]
      rfl
    · rw [← hholds.encode_read]
      exact Image.slice_placements _
  · rintro hless ⟨i, hdecoded, hverified⟩
    rw [hdecode, Except.ok.injEq] at hdecoded
    rw [← hdecoded, hverify] at hverified
    omega

/-- A section that is not checksummed goes unnoticed if its bytes cancel out. -/
theorem decode_complete_cancelling :
    let text : Section := { name := ".text", loadAddress := 0x1000, contents := [1, 2, 3, 4, 5] }
    let data : Section :=
      { name := ".data", loadAddress := 0x3000, contents := [6, 9, 15], checksummed := false }
    ∃ b i,
      (start { format := 3, entry := 0x100 }).packAll [text, { text with contents := [] }, data] = .ok b ∧
      Image.decode b.complete.contents = .ok i ∧
      List.Forall₂ (Image.Shows b.complete.contents) i.placements [text, data] ∧ i.verify = .ok () := by
  intro text data
  have hfits : ∀ s ∈ [text, { text with contents := [] }, data], s.Fits := by decide
  have hcount : totalFill [text, { text with contents := [] }, data] < 2 ^ 32 := by decide
  have hpack := (packAll_eq_ok_iff (b := start { format := 3, entry := 0x100 })).2 ⟨hfits, by decide, rfl⟩
  obtain ⟨i, hdecode, -, hshows, hverify, -⟩ := decode_complete rfl hpack
  exact ⟨_, i, hpack, hdecode, hshows, hverify.2 ⟨by decide, by decide⟩⟩

end Builder

end BootImage
