import BootImage.Assembly
import BootImage.Proofs.Acceptance
import BootImage.Proofs.Packing

/-!
# Assembling and decoding

* (building) What a completed builder holds is the encoding of an image: its segments are made of the sections
  that went into the builder, and if all of these are checksummed, its padding and checksum are the ones it
  calls for: `Builder.Holds.complete_eq`.
* (assembling) A program is assembled exactly when both of its sections are shorter than the longest that
  could be given a length, into the image of its non-empty sections: `assemble_eq_ok_iff`.
* (the round trip) Decoding this image gives the sections back: `decode_assemble`.
-/

namespace BootImage

namespace Builder

variable {header : Header} {packed : List Section} {b : Builder}

/-- The zeros behind the sections' bytes leave the checksum alone. -/
theorem xorSum_filled (start : UInt8) (packed : List Section) :
    xorSum start ((packed.map Section.filled).flatMap Segment.data) =
      xorSum start (packed.flatMap Section.contents) := by
  induction packed generalizing start with
  | nil => rfl
  | cons s rest ih =>
    rw [List.map_cons, List.flatMap_cons, List.flatMap_cons, xorSum_append, xorSum_append, ih,
      Section.xorSum_filled]

/-- The segments that went into a builder can be loaded. -/
theorem Holds.loadable (h : b.Holds header packed) (hne : ∀ s ∈ packed, s.contents ≠ []) :
    ∀ s ∈ packed.map Section.filled, s.Loadable := by
  intro made hmade
  obtain ⟨s, hs, rfl⟩ := List.mem_map.1 hmade
  refine ⟨?_, ?_⟩
  · rw [Section.filled]
    exact List.append_ne_nil_of_left_ne_nil (hne s hs) _
  · rw [Section.length_filled]
    exact h.sizes s hs

/-- A builder holds what stands in front of the padding. -/
theorem Holds.contents_eq_body (h : b.Holds header packed) :
    b.contents = Image.body header (packed.map Section.filled) := by
  rw [h.contents, Image.body, List.flatMap_map]
  congr 2
  funext s
  rw [← Section.encode_filled]
  rfl

theorem Holds.complete_eq (h : b.Holds header packed) (hall : ∀ s ∈ packed, s.checksummed) :
    b.complete = ⟨(Image.closed header (packed.map Section.filled)).encode,
      (Image.closed header (packed.map Section.filled)).checksum⟩ := by
  have hchecksum : b.tally.checksum = xorSum 0xEF (packed.flatMap Section.contents) := by
    rw [h.checksum, List.filter_eq_self.2 hall]
  rw [← xorSum_filled] at hchecksum
  rw [complete, Image.encode_closed, ← h.contents_eq_body, hchecksum]
  rfl

end Builder

namespace Layout

variable (layout : Layout) (text rodata : Bytes)

def present : List Section := (layout.sections text rodata).filter (!·.contents.isEmpty)

def image : Image := Image.closed { entry := layout.entry } ((layout.present text rodata).map Section.filled)

variable {text rodata}

private theorem fits_sections :
    (∀ s ∈ layout.sections text rodata, s.Fits) ↔ text.length < 2 ^ 32 - 4 ∧ rodata.length < 2 ^ 32 - 4 := by
  simp [sections, Section.Fits, Section.toNat_alignment]

/-- Two sections have too few alignment bytes to overflow. -/
private theorem totalFill_sections : totalFill (layout.sections text rodata) < 2 ^ 32 := by
  have hfill (s : Section) (hc : s.checksummed) : s.fill.length < 4 := by
    have h := s.length_fill_lt
    rwa [if_pos hc] at h
  have htext := hfill { name := ".text", loadAddress := layout.bounds.textStart, contents := text } rfl
  have hrodata :=
    hfill { name := ".rodata", loadAddress := layout.bounds.rodataStart, contents := rodata } rfl
  simp only [sections, totalFill_cons, if_true]
  show _ + (_ + 0) < _
  omega

private theorem checksummed_present : ∀ s ∈ layout.present text rodata, s.checksummed := by
  intro s hs
  have hs := (List.mem_filter.1 hs).1
  simp only [sections, List.mem_cons, List.not_mem_nil, or_false] at hs
  rcases hs with rfl | rfl <;> rfl

private theorem contents_present : ∀ s ∈ layout.present text rodata, s.contents ≠ [] := by
  intro s hs
  have hne := (List.mem_filter.1 hs).2
  simpa using hne

/-- An image has one segment for each section that is not empty. -/
theorem length_present :
    (layout.present text rodata).length = (if text = [] then 0 else 1) + (if rodata = [] then 0 else 1) := by
  cases text <;> cases rodata <;> rfl

/-- Leaving empty sections out does not change what the sections hold together. -/
private theorem flatMap_contents_present :
    (layout.present text rodata).flatMap Section.contents = text ++ rodata := by
  cases text <;> cases rodata <;> simp [present, sections]

private theorem checksum_image : (layout.image text rodata).checksum = xorSum 0xEF (text ++ rodata) := by
  rw [← layout.flatMap_contents_present, ← Builder.xorSum_filled]
  rfl

private theorem exists_packAll_sections (header : Header) :
    (∃ b, (Builder.start header).packAll (layout.sections text rodata) = .ok b) ↔
      text.length < 2 ^ 32 - 4 ∧ rodata.length < 2 ^ 32 - 4 := by
  rw [Builder.exists_packAll_start_iff, fits_sections, and_iff_left layout.totalFill_sections]

/-- The empty sections of a program leave no trace in a new builder. -/
private theorem holds_present {header : Header} {b : Builder}
    (hpack : (Builder.start header).packAll (layout.sections text rodata) = .ok b) :
    b.Holds header (layout.present text rodata) :=
  (Builder.holds_start header).packAll hpack

theorem decode_image (h : text.length < 2 ^ 32 - 4 ∧ rodata.length < 2 ^ 32 - 4) :
    Image.decode (layout.image text rodata).encode = .ok (layout.image text rodata) := by
  obtain ⟨b, hpack⟩ := (layout.exists_packAll_sections { entry := layout.entry }).2 h
  have hholds := layout.holds_present hpack
  apply Image.decode_closed
  refine ⟨rfl, ?_, hholds.loadable layout.contents_present⟩
  rw [List.length_map, length_present]
  show _ ≤ 2
  split <;> split <;> omega

end Layout

theorem assemble_eq_ok_iff {layout : Layout} {text rodata : Bytes} {done : CompleteImage} :
    assemble layout text rodata = .ok done ↔ (text.length < 2 ^ 32 - 4 ∧ rodata.length < 2 ^ 32 - 4) ∧
      ⟨(layout.image text rodata).encode, (layout.image text rodata).checksum⟩ = done := by
  rw [← layout.exists_packAll_sections { entry := layout.entry }, assemble]
  cases hpack : (Builder.start { entry := layout.entry }).packAll (layout.sections text rodata) with
  | error e => simp [Except.map]
  | ok b =>
    rw [Except.map, (layout.holds_present hpack).complete_eq layout.checksummed_present, Except.ok.injEq]
    exact (and_iff_right ⟨b, rfl⟩).symm

/-! ### The round trip -/

/-- A segment that is reported with its offset is made of the section: it is loaded at the section's
address, and the section's bytes stand at the offset, with zeros up to the least multiple of its alignment
behind them. -/
structure Image.Shows (contents : Bytes) (p : Nat × Segment) (s : Section) : Prop where
  address : p.2.loadAddress = s.loadAddress
  length : IsLeast {n | (if s.checksummed then 4 else 16) ∣ n ∧ s.contents.length ≤ n} p.2.data.length
  bytes : (contents.drop p.1).take p.2.data.length =
    s.contents ++ List.replicate (p.2.data.length - s.contents.length) 0

/-- A segment that is reported with its offset is made of these bytes: it is loaded at their address, and they
stand at the offset, with zeros up to the least multiple of four behind them. -/
structure Image.Carries (contents : Bytes) (p : Nat × Segment) (source : UInt32 × Bytes) : Prop where
  address : p.2.loadAddress = source.1
  length : IsLeast {n | 4 ∣ n ∧ source.2.length ≤ n} p.2.data.length
  bytes : (contents.drop p.1).take p.2.data.length =
    source.2 ++ List.replicate (p.2.data.length - source.2.length) 0

private theorem Image.shows_filled {contents : Bytes} {offset : Nat} {s : Section}
    (hslice : (contents.drop offset).take s.filled.data.length = s.filled.data) :
    Shows contents (offset, s.filled) s := by
  have hleast := s.isLeast_paddedSize
  rw [← Section.length_filled] at hleast
  refine ⟨rfl, hleast, ?_⟩
  rw [hslice, Section.length_filled]
  rfl

/-- Segments that are made of sections show these sections, one by one. -/
theorem Image.forall₂_shows {contents : Bytes} {placed : List (Nat × Segment)} {packed : List Section}
    (h : placed.map Prod.snd = packed.map Section.filled)
    (hslice : ∀ p ∈ placed, (contents.drop p.1).take p.2.data.length = p.2.data) :
    List.Forall₂ (Shows contents) placed packed := by
  induction packed generalizing placed with
  | nil =>
    rw [List.map_eq_nil_iff.1 h]
    exact List.Forall₂.nil
  | cons s rest ih =>
    obtain ⟨⟨offset, made⟩, tail, rfl, rfl, htail⟩ := List.map_eq_cons_iff.1 h
    rw [List.forall_mem_cons] at hslice
    exact List.Forall₂.cons (shows_filled hslice.1) (ih htail hslice.2)

private theorem Image.Shows.carries {contents : Bytes} {p : Nat × Segment} {s : Section}
    (h : Shows contents p s) (hc : s.checksummed) : Carries contents p (s.loadAddress, s.contents) := by
  have hlength := h.length
  rw [if_pos hc] at hlength
  exact ⟨h.address, hlength, h.bytes⟩

/-- Segments that are made of checksummed sections carry these sections, one by one. -/
private theorem Image.forall₂_carries {contents : Bytes} {placed : List (Nat × Segment)}
    {packed : List Section} (h : placed.map Prod.snd = packed.map Section.filled)
    (hall : ∀ s ∈ packed, s.checksummed)
    (hslice : ∀ p ∈ placed, (contents.drop p.1).take p.2.data.length = p.2.data) :
    List.Forall₂ (Carries contents) placed (packed.map fun s => (s.loadAddress, s.contents)) := by
  have hshows := forall₂_shows h hslice
  clear h hslice
  induction hshows with
  | nil => exact List.Forall₂.nil
  | cons hs _ ih =>
    rw [List.forall_mem_cons] at hall
    exact List.Forall₂.cons (hs.carries hall.1) (ih hall.2)

/-- Decoding the image of a program gives an image that verifies and carries the program's non-empty sections,
and nothing else. -/
theorem decode_assemble (layout : Layout) {text rodata : Bytes} (htext : text.length < 2 ^ 32 - 4)
    (hrodata : rodata.length < 2 ^ 32 - 4) :
    ∃ done i, assemble layout text rodata = .ok done ∧ Image.decode done.contents = .ok i ∧
      i.verify = .ok () ∧
      i.header = ⟨0xE9, 2, (0, 0), layout.entry⟩ ∧
      List.Forall₂ (Image.Carries done.contents) i.placements
        ([(layout.bounds.textStart, text), (layout.bounds.rodataStart, rodata)].filter (!·.2.isEmpty)) ∧
      i.checksum = i.computedChecksum ∧ i.computedChecksum = done.checksum ∧
      done.checksum = xorSum 0xEF (text ++ rodata) := by
  have h : text.length < 2 ^ 32 - 4 ∧ rodata.length < 2 ^ 32 - 4 := ⟨htext, hrodata⟩
  refine ⟨_, layout.image text rodata, assemble_eq_ok_iff.2 ⟨h, rfl⟩, layout.decode_image h,
    Image.verify_closed _ _, rfl, ?_, rfl, rfl, layout.checksum_image⟩
  have hpresent : (layout.present text rodata).map (fun s => (s.loadAddress, s.contents)) =
      [(layout.bounds.textStart, text), (layout.bounds.rodataStart, rodata)].filter (!·.2.isEmpty) := by
    cases text <;> cases rodata <;> rfl
  rw [← hpresent]
  apply Image.forall₂_carries _ layout.checksummed_present (Image.slice_placements _)
  rw [Image.map_snd_placements]
  rfl

/-- The image of five bytes of `.text`. -/
theorem decode_assemble_five :
    ∃ done i, assemble ⟨0x100, { textStart := 0x1000, rodataStart := 0x2000 }⟩ [1, 2, 3, 4, 5] [] = .ok done ∧
      Image.decode done.contents = .ok i ∧ i.verify = .ok () ∧ i.header = ⟨0xE9, 2, (0, 0), 0x100⟩ ∧
      List.Forall₂ (Image.Carries done.contents) i.placements [(0x1000, [1, 2, 3, 4, 5])] ∧
      i.checksum = i.computedChecksum ∧ i.computedChecksum = done.checksum ∧ done.checksum = 0xEE :=
  decode_assemble ⟨0x100, { textStart := 0x1000, rodataStart := 0x2000 }⟩ (by decide) (by decide)

end BootImage
