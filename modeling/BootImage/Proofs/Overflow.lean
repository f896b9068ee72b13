import Mathlib
import BootImage.Proofs.Writing

/-!
# Overflow while packing

Rounding up adds the whole alignment before it takes one away.  So the sum leaves a word for the longest
section that is not refused, and for no shorter one.  Nothing else overflows but the count of alignment bytes:
checking for overflow makes a difference to packing in these two cases only (`Section.checked_write_eq_iff`).
-/

namespace BootImage

namespace Section

variable {s : Section} {tally : Tally} {out : Bytes}

private theorem wrapping_write (s : Section) (tally : Tally) (out : Bytes) :
    s.write .wrapping tally out =
      if s.TooLong then .error (.oversize ⟨s.name, s.contents.length⟩) out
      else .ok (s.counted tally) (out ++ s.added) := by
  simp [write_eq]

/-- Checking for overflow makes a difference for the longest section that is not refused, and where the count
of alignment bytes leaves a word. -/
theorem checked_write_eq_iff :
    s.write .checked tally out = s.write .wrapping tally out ↔
      ¬s.Longest ∧ (¬s.TooLong → ¬s.Overfills tally) := by
  rw [wrapping_write, write_eq]
  simp only [true_and]
  by_cases hlong : s.TooLong
  · simp [hlong, hlong.not_longest]
  · by_cases hlongest : s.Longest
    · simp [hlong, hlongest]
    · by_cases hover : s.Overfills tally <;> simp [hlong, hlongest, hover]

end Section

/-- For a section that is not refused, the sum in rounding up leaves a word exactly if the section is the
longest, and the number of its zeros is never negative.  With words that wrap around, every such section is
packed; checking for overflow does the same unless the section is the longest, or the count of alignment bytes
leaves a word. -/
theorem write_overflows_iff (s : Section) (tally : Tally) (out : Bytes) :
    (¬s.TooLong → ∀ a : Arithmetic,
        roundUp a (UInt32.ofNat s.contents.length) s.alignment =
            (if a = .checked ∧ s.Longest then none else some (UInt32.ofNat s.paddedSize)) ∧
          a.subSize (UInt32.ofNat s.paddedSize).toUInt64 (UInt64.ofNat s.contents.length) =
            some (UInt64.ofNat s.fill.length)) ∧
      s.write .wrapping tally out =
        (if s.TooLong then .error (.oversize ⟨s.name, s.contents.length⟩) out
        else .ok (s.counted tally) (out ++ s.added)) ∧
      (s.write .checked tally out = s.write .wrapping tally out ↔
        ¬s.Longest ∧ (¬s.TooLong → s.checksummed → tally.padding.toNat + s.fill.length < 2 ^ 32)) := by
  refine ⟨?_, s.wrapping_write tally out, ?_⟩
  · intro hshort a
    exact ⟨roundUp_sectionAlignment a (Nat.le_of_not_lt hshort), Section.subSize_paddedSize a hshort⟩
  · rw [Section.checked_write_eq_iff]
    simp only [Section.Overfills, not_and, not_le]

/-- The last checksummed section that is packed without overflow. -/
theorem write_overflows_iff_last :
    let s : Section := { name := ".text", loadAddress := 0x1000, contents := List.replicate (2 ^ 32 - 5) 1 }
    ¬s.TooLong ∧ roundUp .checked 4294967291 4 = some 4294967292 ∧
      s.write .checked {} [] = s.write .wrapping {} [] := by
  intro s
  have hlength : s.contents.length = 2 ^ 32 - 5 := List.length_replicate
  have hfits : s.Fits := by
    rw [Section.Fits, hlength]
    decide
  obtain ⟨hshort, hlongest⟩ := s.fits_iff.1 hfits
  have hpadded : s.paddedSize = 2 ^ 32 - 4 := by
    rw [Section.paddedSize, hlength]
    decide
  obtain ⟨hround, -, hagree⟩ := write_overflows_iff s {} []
  refine ⟨hshort, ?_, hagree.2 ⟨hlongest, ?_⟩⟩
  · have h := (hround hshort .checked).1
    rwa [hlength, hpadded, if_neg fun hstop => hlongest hstop.2] at h
  · intro _ hc
    have hfill := s.length_fill_lt
    rw [if_pos hc] at hfill
    show 0 + s.fill.length < 2 ^ 32
    omega

/-- The longest sections of either alignment are not refused, but make an overflow; so does a section whose
alignment bytes can no longer be counted. -/
theorem write_overflows :
    let text : Section := { name := ".text", loadAddress := 0, contents := List.replicate (2 ^ 32 - 4) 1 }
    let raw : Section :=
      { name := "raw", loadAddress := 0, contents := List.replicate (2 ^ 32 - 16) 1, checksummed := false }
    let byte : Section := { name := ".text", loadAddress := 0, contents := [1] }
    (¬text.TooLong ∧ roundUp .checked 4294967292 4 = none ∧
        text.write .checked {} [] ≠ text.write .wrapping {} []) ∧
      (¬raw.TooLong ∧ roundUp .checked 4294967280 16 = none ∧
        raw.write .checked {} [] ≠ raw.write .wrapping {} []) ∧
      ¬byte.TooLong ∧ byte.write .checked ⟨0xEF, 0xFFFFFFFF⟩ [] ≠
        byte.write .wrapping ⟨0xEF, 0xFFFFFFFF⟩ [] := by
  intro text raw byte
  have hdiffers {s : Section} (h : s.Longest) : ¬s.TooLong ∧
    s.write .checked {} [] ≠ s.write .wrapping {} [] :=
    ⟨h.not_tooLong, fun heq => (Section.checked_write_eq_iff.1 heq).1 h⟩
  obtain ⟨htext, htextDiffers⟩ := hdiffers (show text.Longest from List.length_replicate)
  obtain ⟨hraw, hrawDiffers⟩ := hdiffers (show raw.Longest from List.length_replicate)
  refine ⟨⟨htext, by decide, htextDiffers⟩, ⟨hraw, by decide, hrawDiffers⟩, by decide, ?_⟩
  intro heq
  -- the byte needs three more, and none can be counted
  exact absurd (Section.checked_write_eq_iff.1 heq).2 (by decide)

end BootImage
