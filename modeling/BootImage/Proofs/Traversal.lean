import BootImage.Proofs.Offsets

/-!
# What the walk reports

The reported ranges lie one behind the other and make up the file: `Image.tiles_ranges`.  A file decodes
unless the walk overruns, and then the reported segments are those that the walk comes to:
`Image.decode_traverses`.
-/

namespace BootImage

def slice (bytes : Bytes) (range : Nat × Nat) : Bytes := (bytes.drop range.1).take (range.2 - range.1)

/-- The ranges lie one behind the other, from `start` to `stop`. -/
def Tiles : Nat → List (Nat × Nat) → Nat → Prop
  | start, [], stop => start = stop
  | start, range :: rest, stop => range.1 = start ∧ start ≤ range.2 ∧ Tiles range.2 rest stop

namespace Image

/-- The ranges of an image's parts, as they are reported: the header, each segment's header and data, the
padding and the checksum byte. -/
def ranges (i : Image) : List (Nat × Nat) :=
  (0, 8) :: i.placements.flatMap (fun p => [(p.1 - 8, p.1), (p.1, p.1 + p.2.data.length)]) ++
    [(i.dataEnd, i.size - 1), (i.size - 1, i.size)]

def parts (i : Image) : List Bytes :=
  i.header.encode :: i.segments.flatMap (fun s => [s.header.encode, s.data]) ++ [i.padding, [i.checksum]]

/-! ### Tiling -/

def consecutive (start : Nat) : List Bytes → List (Nat × Nat)
  | [] => []
  | part :: rest => (start, start + part.length) :: consecutive (start + part.length) rest

private theorem consecutive_append (start : Nat) (a b : List Bytes) :
    consecutive start (a ++ b) = consecutive start a ++ consecutive (start + a.flatten.length) b := by
  induction a generalizing start with
  | nil => rfl
  | cons part rest ih =>
    rw [List.cons_append, consecutive, ih, consecutive, List.flatten_cons, List.length_append, Nat.add_assoc]
    rfl

private theorem tiles_consecutive (start : Nat) (parts : List Bytes) :
    Tiles start (consecutive start parts) (start + parts.flatten.length) := by
  induction parts generalizing start with
  | nil => rfl
  | cons part rest ih =>
    have h := ih (start + part.length)
    rw [Nat.add_assoc, ← List.length_append] at h
    exact ⟨rfl, Nat.le_add_right _ _, h⟩

private theorem map_slice_consecutive (before : Bytes) (parts : List Bytes) :
    (consecutive before.length parts).map (slice (before ++ parts.flatten)) = parts := by
  induction parts generalizing before with
  | nil => rfl
  | cons part rest ih =>
    have h := ih (before ++ part)
    rw [List.length_append] at h
    have hslice : slice (before ++ (part ++ rest.flatten)) (before.length, before.length + part.length) =
        part := by
      rw [slice, List.drop_left, Nat.add_sub_cancel_left, List.take_left]
    rw [consecutive, List.map_cons, List.flatten_cons, hslice, ← List.append_assoc, h]

private theorem flatten_segments (segments : List Segment) :
    (segments.flatMap fun s => [s.header.encode, s.data]).flatten = segments.flatMap Segment.encode := by
  induction segments with
  | nil => rfl
  | cons s rest ih =>
    rw [List.flatMap_cons, List.flatten_append, ih, List.flatMap_cons, Segment.encode]
    simp

private theorem flatten_parts (i : Image) : i.parts.flatten = i.encode := by
  simp [parts, encode, flatten_segments]

private theorem consecutive_segments (start : Nat) (segments : List Segment) :
    consecutive start (segments.flatMap fun s => [s.header.encode, s.data]) =
      (placeFrom start segments).flatMap fun p => [(p.1 - 8, p.1), (p.1, p.1 + p.2.data.length)] := by
  induction segments generalizing start with
  | nil => rfl
  | cons s rest ih =>
    have h := ih (start + s.extent)
    have hstart : start + SegmentHeader.size - 8 = start := by
      rw [SegmentHeader.size, Nat.add_sub_cancel]
    simp only [placeFrom, List.flatMap_cons, List.cons_append, List.nil_append, consecutive,
      SegmentHeader.length_encode, hstart]
    rw [← h, Segment.extent, Nat.add_assoc]

private theorem ranges_eq (i : Image) : i.ranges = consecutive 0 i.parts := by
  have hpadding : i.dataEnd + i.padding.length = i.size - 1 := by
    rw [size, Nat.add_sub_cancel]
  have hchecksum : i.size - 1 + 1 = i.size := by
    rw [size, Nat.add_sub_cancel]
  simp only [ranges, parts, placements, List.cons_append, consecutive, consecutive_append,
    consecutive_segments, flatten_segments, length_flatMap_encode, Header.length_encode, Nat.zero_add,
    List.length_singleton]
  rw [← dataEnd, hpadding, hchecksum]
  rfl

theorem tiles_ranges (i : Image) : Tiles 0 i.ranges i.encode.length := by
  have h := tiles_consecutive 0 i.parts
  rw [Nat.zero_add, flatten_parts] at h
  rw [ranges_eq]
  exact h

private theorem map_slice_ranges (i : Image) : i.ranges.map (slice i.encode) = i.parts := by
  rw [ranges_eq, ← flatten_parts]
  exact map_slice_consecutive [] i.parts

/-! ### The walk and what it reports -/

/-- The offsets that the walk comes to are those of the reported segments' headers, in order, and the end of
the data. -/
private theorem getElem?_starts (i : Image) (taken offset : Nat) :
    (i.placements.map (·.1 - 8) ++ [i.dataEnd])[taken]? = some offset ↔
      taken ≤ i.segments.length ∧ offset = i.position taken := by
  have hlength : (i.placements.map (·.1 - 8)).length = i.segments.length := by
    rw [← map_snd_placements, List.length_map, List.length_map]
  rcases Nat.lt_trichotomy taken i.segments.length with hlt | rfl | hgt
  · have hstart : (i.placements.map (·.1 - 8))[taken]? = some (i.position taken) := by
      simp only [placements_eq_mapIdx, length_body, List.getElem?_map, List.getElem?_mapIdx,
        List.getElem?_eq_getElem hlt, Option.map_some]
      rfl
    rw [List.getElem?_append_left (by omega), hstart, Option.some.injEq]
    exact ⟨fun h => ⟨Nat.le_of_lt hlt, h.symm⟩, fun h => h.2.symm⟩
  · rw [List.getElem?_append_right (by omega), hlength, Nat.sub_self, List.getElem?_cons_zero,
      Option.some.injEq, position_length]
    exact ⟨fun h => ⟨Nat.le_refl _, h.symm⟩, fun h => h.2.symm⟩
  · rw [List.getElem?_eq_none (by rw [List.length_append, hlength, List.length_singleton]; exact hgt)]
    simp only [reduceCtorEq, false_iff, not_and]
    omega

private theorem decode_eq_error_iff (bytes : Bytes) :
    (∃ e, decode bytes = .error e) ↔ bytes.length ≤ 8 ∨ bytes[0]? ≠ some imageMagic ∨ Overruns bytes := by
  constructor
  · rintro ⟨e, he⟩
    by_cases hsize : bytes.length ≤ 8
    · exact .inl hsize
    · by_cases hmagic : bytes[0]? = some imageMagic
      · exact .inr (.inr (overruns_of_decode (by omega) hmagic he))
      · exact .inr (.inl hmagic)
  · intro hfaulty
    cases hdecode : decode bytes with
    | error e => exact ⟨e, rfl⟩
    | ok i =>
      obtain ⟨rfl, hread⟩ := decode_eq_ok_iff.1 hdecode
      exfalso
      rcases hfaulty with hsize | hmagic | hover
      · rw [length_encode, size, dataEnd, Header.size] at hsize
        omega
      · exact hmagic (congrArg some hread.magic)
      · exact not_overruns_encode hread hover

/-- Why the walk stops at the end of the data. -/
private theorem Readable.stops_at_dataEnd {i : Image} (hread : i.Readable) :
    i.segments.length = i.header.format.toNat ∨ i.encode.length - 1 < i.dataEnd + 8 ∨
      wordAt i.encode (i.dataEnd + 4) = 0 := by
  have hgoes := goesOn_position hread (Nat.le_refl _)
  rw [position_length] at hgoes
  have hformat : i.encode.getD 1 0 = i.header.format := rfl
  by_contra hnone
  simp only [not_or] at hnone
  obtain ⟨hcount, hroom, hlength⟩ := hnone
  have hle := hread.count
  refine absurd (hgoes.1 ⟨?_, by omega, hlength⟩) (Nat.lt_irrefl _)
  rw [hformat]
  omega

private theorem flatMap_data (i : Image) :
    i.segments.flatMap Segment.data = i.placements.flatMap fun p =>
      slice i.encode (p.1, p.1 + p.2.data.length) := by
  rw [← map_snd_placements, List.flatMap_map]
  refine List.flatMap_congr fun p hp => ?_
  rw [slice, Nat.add_sub_cancel_left, slice_placements i p hp]

/-- A file fails to decode exactly when it is too small, starts with another magic number, or the walk meets a
segment that overruns.  What decoding reports is what the walk comes to, and makes up the file. -/
theorem decode_traverses (bytes : Bytes) :
    ((∃ e, decode bytes = .error e) ↔ bytes.length ≤ 8 ∨ bytes[0]? ≠ some 0xE9 ∨ Overruns bytes) ∧
      (∀ i, decode bytes = .ok i →
        (∀ taken offset, Reaches bytes taken offset ↔
          (i.placements.map (·.1 - 8) ++ [i.dataEnd])[taken]? = some offset) ∧
        Tiles 0 i.ranges bytes.length ∧ i.ranges.map (slice bytes) = i.parts ∧
        (∀ s ∈ i.segments, s.data ≠ []) ∧ i.segments.length ≤ i.header.format.toNat ∧
        (i.segments.length = i.header.format.toNat ∨ bytes.length - 1 < i.dataEnd + 8 ∨
          wordAt bytes (i.dataEnd + 4) = 0) ∧
        i.computedChecksum =
          xorSum 0xEF (i.placements.flatMap fun p => slice bytes (p.1, p.1 + p.2.data.length))) ∧
      (8 < bytes.length → ∀ start stop, Reads bytes start stop → start ≤ stop ∧ stop ≤ bytes.length) := by
  refine ⟨decode_eq_error_iff bytes, ?_, fun hsize start stop => Reads.bounds hsize⟩
  intro i hdecode
  obtain ⟨rfl, hread⟩ := decode_eq_ok_iff.1 hdecode
  have hnonempty : ∀ s ∈ i.segments, s.data ≠ [] := fun s hs => (hread.loadable s hs).1
  refine ⟨?_, tiles_ranges i, map_slice_ranges i, hnonempty, hread.count, hread.stops_at_dataEnd, ?_⟩
  · intro taken offset
    rw [reaches_encode_iff hread, getElem?_starts]
  · rw [computedChecksum, flatMap_data]
    rfl

/-- The ranges and the offsets of a file with one segment. -/
theorem decode_traverses_four :
    let i : Image := ⟨{ entry := 0x100 }, [⟨0x2000, [9, 8, 7, 0]⟩], List.replicate 11 0, 0xE9⟩
    decode i.encode = .ok i ∧ Tiles 0 [(0, 8), (8, 16), (16, 20), (20, 31), (31, 32)] i.encode.length ∧
      Reaches i.encode 1 20 ∧ wordAt i.encode 24 = 0 ∧ 8 < i.encode.length ∧ Reads i.encode 16 20 ∧
      20 ≤ i.encode.length := by
  intro i
  have hdecode : decode i.encode = .ok i := by decide
  have hsize : 8 < i.encode.length := by decide
  obtain ⟨-, hok, hreads⟩ := decode_traverses i.encode
  obtain ⟨hreaches, htiles, -, -, -, hstop, -⟩ := hok i hdecode
  have hstart : Reaches i.encode 0 8 := (hreaches 0 8).2 (by decide)
  have hread : Reads i.encode 16 20 := .data hstart ⟨by decide, by decide, by decide⟩ (by decide)
  refine ⟨hdecode, htiles, (hreaches 1 20).2 (by decide), ?_, hsize, hread, (hreads hsize 16 20 hread).2⟩
  rcases hstop with h | h | h
  · exact absurd h (by decide)
  · exact absurd h (by decide)
  · exact h

end Image

end BootImage
