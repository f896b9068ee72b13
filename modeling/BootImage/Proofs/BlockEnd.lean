import BootImage.Proofs.Acceptance
import BootImage.Proofs.Overflow

/-!
# The place of the checksum

Completing an image counts the zeros in front of the checksum by remainders, verifying one sets the low bits
of the offset behind the last segment.  Both mean the last byte of a block.

* (sizes) The two formulas agree on every size, and on words as long as the block ends within them:
  `add_tailPadding_eq_or`, `Arithmetic.tailPadding_eq`, `Arithmetic.checksumOffset_eq`.
* (completing) The checksum stands in this place: `Builder.getElem?_complete`.
* (verifying) With any other number of bytes in front of it the checksum is refused for its place:
  `Image.verify_of_length_ne`.
-/

namespace BootImage

/-! ### Sizes -/

private theorem tailPadding_lt (size : Nat) : tailPadding size < 16 :=
  Nat.mod_lt _ (by decide)

private theorem dvd_add_tailPadding (size : Nat) : 16 ∣ size + tailPadding size + 1 := by
  rw [add_tailPadding]
  omega

theorem add_tailPadding_eq_or (size : Nat) : size + tailPadding size = size ||| 15 := by
  rw [add_tailPadding, or_fifteen]

namespace Arithmetic

/-- The number of zeros in front of the checksum byte, one operation after the other. -/
def tailPadding (a : Arithmetic) (size : UInt64) : Option UInt64 := do
  let next ← a.addSize size 1
  let missing ← a.subSize (UInt64.ofNat blockSize) (next % UInt64.ofNat blockSize)
  return missing % UInt64.ofNat blockSize

def checksumOffset (a : Arithmetic) (size : UInt64) : Option UInt64 := do
  let zeros ← a.tailPadding size
  a.addSize size zeros

variable {size : UInt64}

theorem tailPadding_eq (a : Arithmetic) (h : size.toNat + 1 < 2 ^ 64) :
    a.tailPadding size = some (UInt64.ofNat (BootImage.tailPadding size.toNat)) := by
  have hblock : (UInt64.ofNat blockSize).toNat = 16 := rfl
  have hnext : (size + 1).toNat = size.toNat + 1 := by
    rw [UInt64.toNat_add]
    exact Nat.mod_eq_of_lt h
  have hrest : ((size + 1) % UInt64.ofNat blockSize).toNat = (size.toNat + 1) % 16 := by
    rw [UInt64.toNat_mod, hnext, hblock]
  have hle : ((size + 1) % UInt64.ofNat blockSize).toNat ≤ (UInt64.ofNat blockSize).toNat := by
    rw [hrest, hblock]
    omega
  rw [tailPadding, addSize_of_lt h, Option.bind_eq_bind, Option.bind_some, subSize_of_le hle]
  refine congrArg some ?_
  rw [← UInt64.toNat_inj, UInt64.toNat_mod, UInt64.toNat_sub_of_le _ _ (UInt64.le_iff_toNat_le.2 hle),
    hrest, hblock]
  exact (UInt64.toNat_ofNat_of_lt' (Nat.lt_trans (tailPadding_lt _) (by decide))).symm

private theorem toNat_or_fifteen (size : UInt64) : (size ||| 15).toNat = size.toNat ||| 15 :=
  UInt64.toNat_or _ _

theorem checksumOffset_eq (a : Arithmetic) (h : size.toNat + 1 < 2 ^ 64) :
    a.checksumOffset size = some (size ||| 15) := by
  have hzeros : (UInt64.ofNat (BootImage.tailPadding size.toNat)).toNat = BootImage.tailPadding size.toNat :=
    UInt64.toNat_ofNat_of_lt' (Nat.lt_trans (tailPadding_lt _) (by decide))
  have hsum : size.toNat + (UInt64.ofNat (BootImage.tailPadding size.toNat)).toNat = (size ||| 15).toNat := by
    rw [hzeros, add_tailPadding_eq_or, toNat_or_fifteen]
  have hlt := (size ||| 15).toNat_lt
  rw [checksumOffset, tailPadding_eq a h, Option.bind_eq_bind, Option.bind_some,
    addSize_of_lt (by rwa [hsum])]
  refine congrArg some ?_
  rw [← UInt64.toNat_inj, UInt64.toNat_add, hsum, Nat.mod_eq_of_lt hlt]

/-- The size of the complete image is a word too, unless the checksum is the last byte there can be. -/
private theorem addSize_checksumOffset (a : Arithmetic) (h : size.toNat < 2 ^ 64 - 16) :
    ∃ total, a.addSize (size ||| 15) 1 = some total ∧ total.toNat = (size.toNat ||| 15) + 1 := by
  have hor : (size ||| 15).toNat = size.toNat / 16 * 16 + 15 := by
    rw [toNat_or_fifteen, or_fifteen]
  have hlt : (size ||| 15).toNat + (1 : UInt64).toNat < 2 ^ 64 := by
    rw [hor]
    show size.toNat / 16 * 16 + 15 + 1 < 2 ^ 64
    omega
  refine ⟨_, addSize_of_lt hlt, ?_⟩
  rw [UInt64.toNat_add, Nat.mod_eq_of_lt hlt, toNat_or_fifteen]
  rfl

end Arithmetic

/-! ### Completing -/

namespace Builder

private theorem length_complete_eq_or (b : Builder) :
    b.complete.contents.length = (b.contents.length ||| 15) + 1 := by
  rw [complete, List.length_append, List.length_append, List.length_replicate, add_tailPadding_eq_or,
    List.length_singleton]

theorem getElem?_complete (b : Builder) :
    b.complete.contents[b.contents.length ||| 15]? = some b.tally.checksum := by
  have hlast : b.complete.contents.getLast? = some b.tally.checksum := List.getLast?_concat
  rwa [List.getLast?_eq_getElem?, length_complete_eq_or, Nat.add_sub_cancel] at hlast

end Builder

/-! ### Verifying -/

namespace Image

variable {i : Image}

def closedBy (h : Header) (segments : List Segment) (zeros : Nat) : Image :=
  ⟨h, segments, List.replicate zeros 0, xorSum checksumStart (segments.flatMap Segment.data)⟩

private theorem verify_closedBy_iff {h : Header} {segments : List Segment} {zeros : Nat} :
    (closedBy h segments zeros).verify = .ok () ↔ zeros = tailPadding (Header.size + extent segments) := by
  have hlength : (closedBy h segments zeros).padding.length = zeros := List.length_replicate
  rw [verify_iff_checks, ← and_assoc, length_padding_iff, hlength]
  exact and_iff_left ⟨rfl, rfl⟩

private theorem length_padding_of_verify (h : i.verify = .ok ()) :
    i.padding.length = tailPadding i.dataEnd := by
  obtain ⟨hsize, hplace, -⟩ := verify_iff_checks.1 h
  exact length_padding_iff.1 ⟨hsize, hplace⟩

private theorem size_eq_or (h : i.padding.length = tailPadding i.dataEnd) :
    i.size = (i.dataEnd ||| 15) + 1 := by
  rw [size, h, add_tailPadding_eq_or]

private theorem getElem?_encode (i : Image) : i.encode[i.size - 1]? = some i.checksum := by
  rw [← getLast?_encode i, List.getLast?_eq_getElem?, length_encode]

/-- What is said of a checksum in another place: that it ends no block, or the wrong one. -/
theorem verify_of_length_ne (h : i.padding.length ≠ tailPadding i.dataEnd) :
    i.verify = .error (if i.size % blockSize = 0 then .misplacedChecksum (i.size - 1) (i.dataEnd ||| 15)
      else .unalignedSize i.size) := by
  by_cases hsize : i.size % blockSize = 0
  · have hplace : i.checksumOffset ≠ i.size - 1 := fun hplace => h (length_padding_iff.1 ⟨hsize, hplace⟩)
    rw [verify, if_neg (not_not_intro hsize), if_pos hplace, if_pos hsize]
    rfl
  · rw [verify, if_pos hsize, if_neg hsize]

/-- Anywhere else in its block, with too few bytes in front of it, the checksum ends no block. -/
private theorem verify_of_same_block (h : i.padding.length ≠ tailPadding i.dataEnd)
    (hblock : (i.size - 1) / 16 = i.dataEnd / 16) : i.verify = .error (.unalignedSize i.size) := by
  have hadd := add_tailPadding i.dataEnd
  have hsize : i.size % blockSize ≠ 0 := by
    rw [size, blockSize] at *
    omega
  rw [verify_of_length_ne h, if_neg hsize]

end Image

/-- Completing and verifying mean one place for the checksum, whatever stands in front of it: the zeros are
fewer than a block, fill it but for one byte, and end at the offset with its low bits set; on words too, where
nothing overflows.  Completing puts the checksum there.  An image that verifies has it there; with any other
number of bytes in front of it the checksum is refused for its place, and with the right number of zeros it is
not. -/
theorem tailPadding_places_checksum (size : Nat) :
    (tailPadding size < 16 ∧ 16 ∣ size + tailPadding size + 1 ∧ size + tailPadding size = size ||| 15) ∧
      (size < 2 ^ 64 - 16 → ∀ a : Arithmetic,
        a.tailPadding (UInt64.ofNat size) = some (UInt64.ofNat (tailPadding size)) ∧
          a.checksumOffset (UInt64.ofNat size) = some (UInt64.ofNat size ||| 15) ∧
          (UInt64.ofNat size ||| 15).toNat = size ||| 15 ∧
          ∃ total, a.addSize (UInt64.ofNat size ||| 15) 1 = some total ∧ total.toNat = (size ||| 15) + 1) ∧
      (∀ b : Builder, b.contents.length = size →
        b.complete.contents.length = (size ||| 15) + 1 ∧
          b.complete.contents[size ||| 15]? = some b.tally.checksum) ∧
      (∀ i : Image, i.dataEnd = size →
        i.checksumOffset = size ||| 15 ∧
          (i.verify = .ok () → i.padding.length = tailPadding size ∧ i.size = (size ||| 15) + 1 ∧
            i.encode[size ||| 15]? = some i.checksum) ∧
          (i.padding.length ≠ tailPadding size →
            i.verify = .error (if i.size % blockSize = 0 then .misplacedChecksum (i.size - 1) (size ||| 15)
              else .unalignedSize i.size) ∧
            ((i.size - 1) / 16 = size / 16 → i.verify = .error (.unalignedSize i.size)))) ∧
      ∀ h segments zeros, Header.size + Image.extent segments = size →
        ((Image.closedBy h segments zeros).verify = .ok () ↔ zeros = tailPadding size) := by
  refine ⟨⟨tailPadding_lt size, dvd_add_tailPadding size, add_tailPadding_eq_or size⟩, ?_, ?_, ?_, ?_⟩
  · intro hsize a
    have hword : (UInt64.ofNat size).toNat = size :=
      UInt64.toNat_ofNat_of_lt' (by simp only [UInt64.size]; omega)
    have hlast : (UInt64.ofNat size).toNat < 2 ^ 64 - 16 := by rwa [hword]
    have hnext : (UInt64.ofNat size).toNat + 1 < 2 ^ 64 := by omega
    have hzeros := a.tailPadding_eq hnext
    have hoffset := a.checksumOffset_eq hnext
    have htotal := a.addSize_checksumOffset hlast
    have hor := Arithmetic.toNat_or_fifteen (UInt64.ofNat size)
    rw [hword] at hzeros htotal hor
    exact ⟨hzeros, hoffset, hor, htotal⟩
  · rintro b rfl
    exact ⟨b.length_complete_eq_or, b.getElem?_complete⟩
  · rintro i rfl
    refine ⟨rfl, ?_, ?_⟩
    · intro hverify
      have hlength := Image.length_padding_of_verify hverify
      have hchecksum := i.getElem?_encode
      rw [Image.size_eq_or hlength, Nat.add_sub_cancel] at hchecksum
      exact ⟨hlength, Image.size_eq_or hlength, hchecksum⟩
    · intro hlength
      exact ⟨Image.verify_of_length_ne hlength, Image.verify_of_same_block hlength⟩
  · rintro h segments zeros rfl
    exact Image.verify_closedBy_iff

/-- The last size whose block is followed by another, and an image with four bytes of data. -/
theorem tailPadding_places_checksum_last :
    let i : Image := ⟨{ entry := 0x100 }, [⟨0x2000, [9, 8, 7, 0]⟩], List.replicate 11 0, 0xE9⟩
    let moved : Image := { i with padding := List.replicate 27 0 }
    2 ^ 64 - 17 < 2 ^ 64 - 16 ∧
      Arithmetic.checked.checksumOffset 0xFFFFFFFFFFFFFFEF = some 0xFFFFFFFFFFFFFFEF ∧
      i.dataEnd = 20 ∧ i.verify = .ok () ∧ i.encode[31]? = some 0xE9 ∧
      moved.padding.length ≠ tailPadding 20 ∧ moved.verify = .error (.misplacedChecksum 47 31) := by
  intro i moved
  have hend : i.dataEnd = 20 := by decide
  have hverify : i.verify = .ok () := by decide
  obtain ⟨-, hoffset, -⟩ := (tailPadding_places_checksum (2 ^ 64 - 17)).2.1 (by decide) .checked
  obtain ⟨-, haccepted, -⟩ := (tailPadding_places_checksum 20).2.2.2.1 i hend
  obtain ⟨-, -, hrefused⟩ := (tailPadding_places_checksum 20).2.2.2.1 moved hend
  have hlength : moved.padding.length ≠ tailPadding 20 := by decide
  have hsize : moved.size % blockSize = 0 := by decide
  have hmoved := (hrefused hlength).1
  rw [if_pos hsize] at hmoved
  exact ⟨by decide, hoffset, hend, hverify, (haccepted hverify).2.2, hlength, hmoved⟩

end BootImage
