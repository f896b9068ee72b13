import BootImage.Proofs.RoundTrip

/-!
# Changing a byte of the padding

An accepted file is rejected once a byte of its padding is changed, but for one case: the header allows a
further segment, the changed byte is the low byte of the length in the segment header that would stand there,
and a segment of this length leaves room for the checksum byte.  Then the changed file is written by the
grammar again, with one more segment of zeros: `Image.accepted_set_padding_iff`.  For the image of a program
the header allows a further segment exactly when a section is empty: `accepted_set_iff`.
-/

namespace BootImage

def dirtied (size index : Nat) (value : UInt8) : Bytes := (List.replicate size 0).set index value

def Segment.blank (size : Nat) : Segment := ⟨0, List.replicate size 0⟩

private theorem Segment.loadable_blank {size : Nat} (hpos : 0 < size) (hsize : size < 2 ^ 32) :
    (blank size).Loadable := by
  refine ⟨?_, ?_⟩
  · rw [blank, ne_eq, List.replicate_eq_nil_iff]
    omega
  · rw [blank, List.length_replicate]
    exact hsize

/-- Changing an element of the middle part of a list. -/
theorem set_middle {α : Type} (before middle after : List α) {k : Nat} (hk : k < middle.length) (value : α) :
    (before ++ middle ++ after).set (before.length + k) value = before ++ middle.set k value ++ after := by
  have hbound : before.length + k < (before ++ middle).length := by
    rw [List.length_append]
    omega
  rw [List.set_append_left _ _ hbound, List.set_append_right _ _ (Nat.le_add_right _ _),
    Nat.add_sub_cancel_left]

private theorem getElem?_dirtied {size j : Nat} (hj : j < size) (index : Nat) (value : UInt8) :
    (dirtied size index value)[j]? = some (if index = j then value else 0) := by
  rw [dirtied, List.getElem?_set, List.length_replicate, List.getElem?_replicate, if_pos hj]
  split
  · rename_i h
    rw [h, if_pos hj]
  · rfl

/-- The changed byte is the low byte of a length, and what it is changed to is this length. -/
private theorem of_dirtied_eq {size index : Nat} {value : UInt8} {s : Segment} {rest : Bytes}
    (hsize : size < 16) (hs : s.Loadable) (h : dirtied size index value = s.encode ++ rest) :
    index = 4 ∧ 8 + value.toNat ≤ size := by
  have hlength : size = 8 + s.data.length + rest.length := by
    have e := congrArg List.length h
    rw [dirtied, List.length_set, List.length_replicate, List.length_append, Segment.length_encode] at e
    exact e
  have hpos : 0 < s.data.length := List.length_pos_iff.2 hs.1
  have hbyte : (if index = 4 then value else 0) = s.header.length.toUInt8 := by
    have hread := getElem?_dirtied (show 4 < size by omega) index value
    rw [h] at hread
    exact (Option.some.inj hread).symm
  have hvalue := congrArg UInt8.toNat hbyte
  rw [UInt32.toNat_toUInt8, Image.toNat_length_header hs] at hvalue
  -- the padding is too short for a length that does not fit its low byte, so this byte is not zero
  split at hvalue
  · rename_i hindex
    refine ⟨hindex, ?_⟩
    omega
  · rw [UInt8.toNat_zero] at hvalue
    omega

private theorem dirtied_eq (value : UInt8) (zeros : Nat) :
    dirtied (8 + value.toNat + zeros) 4 value =
      (Segment.blank value.toNat).encode ++ List.replicate zeros 0 := by
  have hlength : wordBytes (UInt32.ofNat value.toNat) = [value, 0, 0, 0] := by
    rw [← wordBytes_word]
    simp [word]
  have haddress : wordBytes 0 = [0, 0, 0, 0] := by decide
  rw [Segment.encode, Segment.header, Segment.blank, List.length_replicate, SegmentHeader.encode, hlength,
    haddress, dirtied, Nat.add_assoc, Nat.add_comm 8, List.append_assoc, List.append_assoc,
    List.replicate_append_replicate]
  simp only [List.replicate_succ, List.set_cons_succ, List.set_cons_zero, List.cons_append, List.nil_append]

namespace Image

/-- Changing a byte of the padding changes nothing else. -/
private theorem encode_set_padding (i : Image) {k : Nat} (hk : k < i.padding.length) (value : UInt8) :
    i.encode.set (i.dataEnd + k) value = { i with padding := i.padding.set k value }.encode := by
  have hfront : i.dataEnd = (i.header.encode ++ i.segments.flatMap Segment.encode).length := by
    rw [List.length_append, Header.length_encode, length_flatMap_encode, dataEnd]
  rw [encode, hfront, set_middle _ _ _ hk]
  rfl

/-- With one more segment of zeros in the place of the first padding bytes, the rest of the padding and the
checksum are still the ones that are called for. -/
private theorem encode_closed_blank (h : Header) (segments : List Segment) {value : UInt8}
    (hroom : 8 + value.toNat ≤ (closed h segments).padding.length) :
    (closed h (segments ++ [Segment.blank value.toNat])).encode =
      { closed h segments with padding := dirtied (closed h segments).padding.length 4 value }.encode := by
  obtain ⟨zeros, hzeros⟩ := Nat.exists_eq_add_of_le hroom
  have hlength : (closed h segments).padding.length = tailPadding (Header.size + extent segments) :=
    List.length_replicate
  have hextent : extent [Segment.blank value.toNat] = 8 + value.toNat := by
    simp [extent, Segment.extent, Segment.blank, SegmentHeader.size]
  have htail : tailPadding (Header.size + extent (segments ++ [Segment.blank value.toNat])) = zeros := by
    have hbefore := add_tailPadding (Header.size + extent segments)
    have hafter := add_tailPadding (Header.size + (extent segments + (8 + value.toNat)))
    rw [extent_append, hextent]
    omega
  have hchecksum : (closed h (segments ++ [Segment.blank value.toNat])).checksum =
      (closed h segments).checksum := by
    simp [closed, Segment.blank, xorSum_append, xorSum_replicate_zero]
  rw [hzeros, dirtied_eq, encode, hchecksum, closed, htail]
  simp [encode, closed]

/-- If a file is accepted in spite of a byte in its padding, the walk has read a segment there. -/
private theorem of_accepted_dirtied {i : Image} (hallowed : Allowed i.header i.segments)
    (hsize : i.padding.length < 16) {k : Nat} (hk : k < i.padding.length) {value : UInt8} (hvalue : value ≠ 0)
    (h : Accepted { i with padding := dirtied i.padding.length k value }.encode) :
    i.segments.length < i.header.format.toNat ∧ k = 4 ∧ 8 + value.toNat ≤ i.padding.length := by
  obtain ⟨read, hdecode, hverify⟩ := h
  obtain ⟨found, padding, rfl, hrest, hmore, hfound⟩ := exists_of_decode_encode hallowed hdecode
  cases found with
  | nil =>
    -- nothing was read off the padding, which is checked as a whole
    have hzeros : padding = List.replicate padding.length 0 := (verify_iff_checks.1 hverify).2.2.1
    have hread := getElem?_dirtied hk k value
    rw [hrest, List.flatMap_nil, List.nil_append, hzeros, if_pos rfl] at hread
    have hzero := List.eq_of_mem_replicate (List.mem_of_getElem? hread)
    contradiction
  | cons s rest =>
    have hs : s.Loadable := hfound s List.mem_cons_self
    rw [List.flatMap_cons, List.append_assoc] at hrest
    rw [List.length_cons] at hmore
    refine ⟨?_, of_dirtied_eq hsize hs hrest⟩
    omega

private theorem Allowed.append_blank {h : Header} {segments : List Segment} (hallowed : Allowed h segments)
    (hless : segments.length < h.format.toNat) {value : UInt8} (hvalue : value ≠ 0) :
    Allowed h (segments ++ [Segment.blank value.toNat]) := by
  have hpos : value.toNat ≠ 0 := by
    rw [← UInt8.toNat_zero, ne_eq, UInt8.toNat_inj]
    exact hvalue
  have hlt := value.toNat_lt
  refine ⟨hallowed.magic, ?_, ?_⟩
  · rw [List.length_append]
    exact hless
  · intro s hs
    rcases List.mem_append.1 hs with hs | hs
    · exact hallowed.loadable s hs
    · rw [List.mem_singleton.1 hs]
      exact Segment.loadable_blank (by omega) (by omega)

/-- An accepted file is still accepted after a change of its padding exactly if the changed byte makes the
zeros in front of the checksum read as one more segment. -/
theorem accepted_set_padding_iff {i : Image} (hread : i.Readable) (hverify : i.verify = .ok ()) {index : Nat}
    (hindex : i.dataEnd ≤ index) (hbound : index < i.size - 1) {value : UInt8} (hvalue : value ≠ 0) :
    Accepted (i.encode.set index value) ↔
      i.segments.length < i.header.format.toNat ∧ index = i.dataEnd + 4 ∧
        i.dataEnd + 8 + value.toNat ≤ i.size - 1 := by
  obtain ⟨hblocks, hplace, hzeros, -⟩ := verify_iff_checks.1 hverify
  have hlength := length_padding_iff.1 ⟨hblocks, hplace⟩
  have hadd := add_tailPadding i.dataEnd
  obtain ⟨k, rfl⟩ := Nat.exists_eq_add_of_le hindex
  rw [size, Nat.add_sub_cancel] at hbound ⊢
  have hdirtied : i.padding.set k value = dirtied i.padding.length k value := by
    conv => lhs; rw [hzeros]
    rfl
  rw [encode_set_padding i (by omega), hdirtied]
  constructor
  · intro h
    obtain ⟨hless, rfl, hroom⟩ := of_accepted_dirtied hread.toAllowed (by omega) (by omega) hvalue h
    refine ⟨hless, rfl, ?_⟩
    omega
  · rintro ⟨hless, hk, hroom⟩
    obtain rfl : k = 4 := by omega
    refine accepted_iff.2 ⟨i.header, _, hread.append_blank hless hvalue, ?_⟩
    have hclosed := verify_eq_ok_iff.1 hverify
    rw [encode_closed_blank, ← hclosed]
    rw [← hclosed]
    omega

end Image

/-- The image of a program has room for a further segment exactly if a section was empty. -/
private theorem Layout.length_segments_lt_iff (layout : Layout) {text rodata : Bytes} :
    (layout.image text rodata).segments.length < (layout.image text rodata).header.format.toNat ↔
      text = [] ∨ rodata = [] := by
  have hlength : (layout.image text rodata).segments.length = (layout.present text rodata).length :=
    List.length_map _
  rw [hlength, length_present]
  show _ < 2 ↔ _
  split <;> split <;> simp [*]

/-- The image of a program is rejected once a byte of its padding is changed, unless a section was empty and
the changed byte makes the zeros in front of the checksum read as one more segment. -/
theorem accepted_set_iff {layout : Layout} {text rodata : Bytes} {done : CompleteImage}
    (h : assemble layout text rodata = .ok done) :
    ∃ image, Image.decode done.contents = .ok image ∧
      ∀ index, image.dataEnd ≤ index → index < done.contents.length - 1 → ∀ value ≠ 0,
        (Image.Accepted (done.contents.set index value) ↔
          (text = [] ∨ rodata = []) ∧ index = image.dataEnd + 4 ∧
            image.dataEnd + 8 + value.toNat ≤ done.contents.length - 1) := by
  obtain ⟨hfits, rfl⟩ := assemble_eq_ok_iff.1 h
  have hdecode := layout.decode_image hfits
  obtain ⟨-, hread⟩ := Image.decode_eq_ok_iff.1 hdecode
  refine ⟨layout.image text rodata, hdecode, ?_⟩
  intro index hindex hbound value hvalue
  rw [Image.length_encode] at hbound ⊢
  rw [Image.accepted_set_padding_iff hread (Image.verify_closed _ _) hindex hbound hvalue,
    layout.length_segments_lt_iff]

/-- Without an empty section no change of the padding is accepted. -/
theorem not_accepted_set_five :
    ∃ done, assemble ⟨0x100, { textStart := 0x1000, rodataStart := 0x2000 }⟩ [1, 2, 3, 4, 5] [9, 8, 7] =
      .ok done ∧
      ∃ image, Image.decode done.contents = .ok image ∧
        ∀ index, image.dataEnd ≤ index → index < done.contents.length - 1 → ∀ value ≠ 0,
          ¬Image.Accepted (done.contents.set index value) := by
  refine ⟨_, rfl, ?_⟩
  have hdone : assemble ⟨0x100, { textStart := 0x1000, rodataStart := 0x2000 }⟩ [1, 2, 3, 4, 5] [9, 8, 7] =
      .ok _ := rfl
  obtain ⟨image, hdecode, h⟩ := accepted_set_iff hdone
  refine ⟨image, hdecode, ?_⟩
  intro index hindex hbound value hvalue
  rw [h index hindex hbound value hvalue]
  simp

/-- A one in the padding behind three bytes of `.rodata` is not noticed. -/
theorem accepted_set_three :
    ∃ done image, assemble ⟨0x100, { textStart := 0x1000, rodataStart := 0x2000 }⟩ [] [9, 8, 7] = .ok done ∧
      Image.decode done.contents = .ok image ∧ image.dataEnd ≤ 24 ∧ 24 < done.contents.length - 1 ∧
      (1 : UInt8) ≠ 0 ∧ Image.Accepted (done.contents.set 24 1) := by
  let image : Image := ⟨{ entry := 0x100 }, [⟨0x2000, [9, 8, 7, 0]⟩], List.replicate 11 0, 0xE9⟩
  -- the padding is now read as a second segment of one zero, with two zeros behind it
  let changed : Image := ⟨{ entry := 0x100 }, [⟨0x2000, [9, 8, 7, 0]⟩, ⟨0, [0]⟩], [0, 0], 0xE9⟩
  have haccepted : Image.Accepted (image.encode.set 24 1) := ⟨changed, by decide, by decide⟩
  exact ⟨⟨image.encode, 0xE9⟩, image, rfl, by decide, by decide, by decide, by decide, haccepted⟩

end BootImage
