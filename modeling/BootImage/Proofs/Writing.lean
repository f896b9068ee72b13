import Mathlib
import BootImage.Proofs.Alignment

/-!
# Writing one section

* (lengths) A section is refused exactly if no multiple of its alignment that holds it fits a word.  The
  longest section that is not refused makes an overflow; all others get the least such multiple:
  `Section.paddedLength_eq`, `rounding_isLeast`.
* (writing) A section that gets a length is written behind the buffer and entered into the tally, unless the
  count of alignment bytes leaves a word: `Section.write_eq`.

Both are stated for words that wrap around and for words that are checked for overflow.
-/

namespace BootImage

namespace Section

variable (s : Section)

/-- No multiple of the alignment that holds the section fits a word. -/
def TooLong : Prop := 2 ^ 32 - s.alignment.toNat < s.contents.length

/-- The section is as long as one that is not refused can be. -/
def Longest : Prop := s.contents.length = 2 ^ 32 - s.alignment.toNat

def Fits : Prop := s.contents.length < 2 ^ 32 - s.alignment.toNat

instance : Decidable s.TooLong := inferInstanceAs (Decidable (_ < _))

instance : Decidable s.Longest := inferInstanceAs (Decidable (_ = _))

instance : Decidable s.Fits := inferInstanceAs (Decidable (_ < _))

def paddedSize : Nat := leastMultiple s.alignment.toNat s.contents.length

def fill : Bytes := List.replicate (s.paddedSize - s.contents.length) 0

def filled : Segment := ⟨s.loadAddress, s.contents ++ s.fill⟩

/-- What a non-empty section adds to an image. -/
def written : Bytes :=
  wordBytes s.loadAddress ++ wordBytes (UInt32.ofNat s.paddedSize) ++ s.contents ++ s.fill

def added : Bytes := if s.contents.isEmpty then [] else s.written

def counted (tally : Tally) : Tally :=
  if s.checksummed then ⟨xorSum tally.checksum s.contents, tally.padding + UInt32.ofNat s.fill.length⟩
  else tally

/-- Counting the section's alignment bytes leaves a word. -/
def Overfills (tally : Tally) : Prop := s.checksummed ∧ 2 ^ 32 ≤ tally.padding.toNat + s.fill.length

instance (tally : Tally) : Decidable (s.Overfills tally) := inferInstanceAs (Decidable (_ ∧ _))

/-- The lengths that the section may be filled up to. -/
def multiples : Set Nat := {n | (if s.checksummed then 4 else 16) ∣ n ∧ s.contents.length ≤ n}

theorem toNat_alignment : s.alignment.toNat = if s.checksummed then 4 else 16 := by
  unfold alignment sectionAlignment
  split <;> rfl

private theorem alignment_bounds : 0 < s.alignment.toNat ∧ s.alignment.toNat ≤ 16 :=
  ⟨toNat_sectionAlignment_pos s.checksummed, toNat_sectionAlignment_le s.checksummed⟩

theorem Longest.not_tooLong {s : Section} (h : s.Longest) : ¬s.TooLong := Nat.not_lt_of_le h.le

theorem TooLong.not_longest {s : Section} (h : s.TooLong) : ¬s.Longest := fun hlongest =>
  hlongest.not_tooLong h

theorem fits_iff : s.Fits ↔ ¬s.TooLong ∧ ¬s.Longest := by
  simp only [Fits, TooLong, Longest]
  omega

theorem isLeast_paddedSize : IsLeast s.multiples s.paddedSize := by
  rw [multiples, ← toNat_alignment]
  exact isLeast_leastMultiple s.alignment_bounds.1 s.contents.length

private theorem paddedSize_lt_add : s.paddedSize < s.contents.length + if s.checksummed then 4 else 16 := by
  rw [← toNat_alignment]
  exact leastMultiple_lt s.alignment_bounds.1 s.contents.length

private theorem length_le_paddedSize : s.contents.length ≤ s.paddedSize := s.isLeast_paddedSize.1.2

@[simp] theorem length_filled : s.filled.data.length = s.paddedSize := by
  have h := s.length_le_paddedSize
  simp only [filled, fill, List.length_append, List.length_replicate]
  omega

theorem length_fill_lt : s.fill.length < if s.checksummed then 4 else 16 := by
  have h := s.paddedSize_lt_add
  have hle := s.length_le_paddedSize
  rw [fill, List.length_replicate]
  omega

theorem encode_filled : s.filled.encode = s.written := by
  rw [Segment.encode, Segment.header, length_filled]
  simp [SegmentHeader.encode, filled, written]

/-- The zeros behind the section's bytes leave the checksum alone. -/
theorem xorSum_filled (start : UInt8) : xorSum start s.filled.data = xorSum start s.contents := by
  rw [filled, xorSum_append, fill, xorSum_replicate_zero]

variable {s}

theorem paddedSize_lt (h : ¬s.TooLong) : s.paddedSize < 2 ^ 32 := by
  have hlt : s.paddedSize < _ := leastMultiple_lt s.alignment_bounds.1 s.contents.length
  have hle := s.alignment_bounds.2
  simp only [TooLong] at h
  omega

private theorem toNat_ofNat_paddedSize (h : ¬s.TooLong) :
    (UInt32.ofNat s.paddedSize).toNat = s.paddedSize :=
  UInt32.toNat_ofNat_of_lt' (paddedSize_lt h)

/-- Words end at a multiple of both alignments, so a section that is not refused leaves room for its
padding. -/
private theorem not_tooLong_iff_exists_multiple : ¬s.TooLong ↔ ∃ n ∈ s.multiples, n < 2 ^ 32 := by
  constructor
  · intro h
    exact ⟨s.paddedSize, s.isLeast_paddedSize.1, paddedSize_lt h⟩
  · rintro ⟨n, ⟨hdvd, hle⟩, hlt⟩
    rw [TooLong, toNat_alignment]
    split
    · rename_i hchecksummed
      rw [if_pos hchecksummed] at hdvd
      omega
    · rename_i hchecksummed
      rw [if_neg hchecksummed] at hdvd
      omega

theorem paddedLength_eq (a : Arithmetic) (s : Section) :
    s.paddedLength a =
      if s.TooLong then .error (.oversize ⟨s.name, s.contents.length⟩)
      else if a = .checked ∧ s.Longest then .error .overflow
      else .ok (UInt32.ofNat s.paddedSize) :=
  BootImage.paddedLength_eq a s.name s.checksummed s.contents.length

/-! ### Empty sections -/

private theorem fits_of_nil (h : s.contents = []) : s.Fits := by
  have hle := s.alignment_bounds.2
  rw [Fits, h, List.length_nil]
  omega

private theorem fill_of_nil (h : s.contents = []) : s.fill = [] := by
  have hzero : s.paddedSize ≤ 0 := s.isLeast_paddedSize.2 ⟨Nat.dvd_zero _, by simp [h]⟩
  rw [fill, Nat.le_zero.1 hzero, Nat.zero_sub, List.replicate_zero]

private theorem not_overfills_of_nil (h : s.contents = []) (tally : Tally) : ¬s.Overfills tally := by
  rintro ⟨-, hle⟩
  rw [fill_of_nil h] at hle
  exact absurd tally.padding.toNat_lt (Nat.not_lt_of_le hle)

theorem counted_of_nil (h : s.contents = []) (tally : Tally) : s.counted tally = tally := by
  simp [counted, h, fill_of_nil h]

/-! ### Writing -/

private def head (s : Section) : Bytes := SegmentHeader.encode ⟨s.loadAddress, UInt32.ofNat s.paddedSize⟩

private theorem written_eq (s : Section) : s.written = s.head ++ s.filled.data := by
  simp only [written, head, filled, SegmentHeader.encode, List.append_assoc]

/-- The buffer once the section's bytes have their zeros. -/
private theorem resize_contents (s : Section) (out : Bytes) :
    resize (out ++ s.head ++ s.contents) ((out ++ s.head).length + s.paddedSize) = out ++ s.written := by
  have hle := s.length_le_paddedSize
  rw [resize_of_le (by rw [@List.length_append _ (out ++ s.head)]; omega),
    @List.length_append _ (out ++ s.head), Nat.add_sub_add_left, written_eq, filled, fill]
  simp only [List.append_assoc]

/-- The part of the buffer that the checksum is taken of. -/
private theorem drop_written (s : Section) (out : Bytes) :
    (out ++ s.written).drop (out ++ s.head).length = s.filled.data := by
  rw [written_eq, ← List.append_assoc, List.drop_left]

private theorem toUInt64_paddedSize (h : ¬s.TooLong) :
    (UInt32.ofNat s.paddedSize).toUInt64 = UInt64.ofNat s.paddedSize := by
  rw [← UInt64.toNat_inj, UInt32.toNat_toUInt64, toNat_ofNat_paddedSize h, UInt64.toNat_ofNat_of_lt']
  exact Nat.lt_trans (paddedSize_lt h) (by decide)

/-- The padded length is not less than the length. -/
theorem subSize_paddedSize (a : Arithmetic) (h : ¬s.TooLong) :
    a.subSize (UInt32.ofNat s.paddedSize).toUInt64 (UInt64.ofNat s.contents.length) =
      some (UInt64.ofNat s.fill.length) := by
  have hle := s.length_le_paddedSize
  have hlt : s.paddedSize < UInt64.size := Nat.lt_trans (paddedSize_lt h) (by decide)
  rw [toUInt64_paddedSize h, Arithmetic.subSize_of_le, fill, List.length_replicate, UInt64.ofNat_sub hle]
  rw [UInt64.toNat_ofNat_of_lt' (Nat.lt_of_le_of_lt hle hlt), UInt64.toNat_ofNat_of_lt' hlt]
  exact hle

/-- The count of alignment bytes can leave a word. -/
private theorem enter_eq (a : Arithmetic) (hc : s.checksummed) (tally : Tally) :
    tally.enter a s.filled.data (UInt64.ofNat s.fill.length) =
      if a = .checked ∧ s.Overfills tally then .error .overflow else .ok (s.counted tally) := by
  have hfill : s.fill.length < UInt32.size := by
    have hlt := s.length_fill_lt
    rw [if_pos hc] at hlt
    exact Nat.lt_trans hlt (by decide)
  have hsum := a.add_eq tally.padding (UInt32.ofNat s.fill.length)
  rw [UInt32.toNat_ofNat_of_lt' hfill] at hsum
  rw [Tally.enter, UInt64.toUInt32_ofNat', hsum, xorSum_filled, counted, if_pos hc]
  simp only [Overfills, hc, true_and]
  split <;> rfl

theorem write_eq (a : Arithmetic) (s : Section) (tally : Tally) (out : Bytes) :
    s.write a tally out =
      if s.TooLong then .error (.oversize ⟨s.name, s.contents.length⟩) out
      else if a = .checked ∧ s.Longest then .error .overflow out
      else if a = .checked ∧ s.Overfills tally then .error .overflow (out ++ s.added)
      else .ok (s.counted tally) (out ++ s.added) := by
  by_cases hnil : s.contents = []
  · obtain ⟨hshort, hlongest⟩ := s.fits_iff.1 (fits_of_nil hnil)
    rw [if_neg hshort, if_neg fun h => hlongest h.2, if_neg fun h => not_overfills_of_nil hnil tally h.2,
      counted_of_nil hnil]
    simp [write, added, hnil, pure, EStateM.pure]
  · have hlength := paddedLength_eq a s
    -- without a length nothing is written
    have herror {e : PackFailure} (h : s.paddedLength a = .error e) : s.write a tally out = .error e out := by
      simp [write, hnil, h, ofExcept, bind, EStateM.bind, throw, throwThe, MonadExceptOf.throw, EStateM.throw]
    by_cases hlong : s.TooLong
    · rw [if_pos hlong] at hlength ⊢
      exact herror hlength
    by_cases hlongest : a = .checked ∧ s.Longest
    · rw [if_neg hlong, if_pos hlongest] at hlength ⊢
      exact herror hlength
    rw [if_neg hlong, if_neg hlongest] at hlength ⊢
    have hsize := toNat_ofNat_paddedSize hlong
    have hadded : s.added = s.written := by
      simp [added, hnil]
    have hbuffer := s.resize_contents out
    have hhead : SegmentHeader.encode ⟨s.loadAddress, UInt32.ofNat s.paddedSize⟩ = s.head := rfl
    simp only [write, List.isEmpty_iff, hnil, if_false, hlength, ofExcept, subSize_paddedSize a hlong, bind,
      EStateM.bind, pure, EStateM.pure, modify, modifyGet, MonadStateOf.modifyGet, EStateM.modifyGet,
      get, getThe, MonadStateOf.get, EStateM.get, hhead, orStop_some, hsize, hbuffer, hadded]
    cases hc : s.checksummed with
    | false => simp [EStateM.pure, counted, Overfills, hc]
    | true =>
      have henter := enter_eq a hc tally
      rw [← s.drop_written out] at henter
      simp only [if_true, EStateM.get, EStateM.bind, henter]
      split <;> rfl

end Section

/-- Rounding up to a power of two gives the least multiple that is not below the value.  So a section is
refused exactly if no multiple of its alignment that holds it fits a word; otherwise its length in an image is
the least such multiple, with less padding than one alignment, unless overflow is checked for and the section
is the longest that is not refused. -/
theorem rounding_isLeast (a : Arithmetic) :
    (∀ (k : Nat) (value : UInt32), k < 32 → value.toNat + 2 ^ k < 2 ^ 32 →
      ∃ rounded, roundUp a value (UInt32.ofNat (2 ^ k)) = some rounded ∧
        IsLeast {n | 2 ^ k ∣ n ∧ value.toNat ≤ n} rounded.toNat) ∧
    ∀ s : Section,
      (s.paddedLength a = .error (.oversize ⟨s.name, s.contents.length⟩) ↔ ¬∃ n ∈ s.multiples, n < 2 ^ 32) ∧
      (s.paddedLength a = .error .overflow ↔
        a = .checked ∧ s.contents.length = 2 ^ 32 - if s.checksummed then 4 else 16) ∧
      ((∃ n ∈ s.multiples, n < 2 ^ 32) →
        (a = .checked → s.contents.length ≠ 2 ^ 32 - if s.checksummed then 4 else 16) →
        ∃ length, s.paddedLength a = .ok length ∧ IsLeast s.multiples length.toNat ∧
          length.toNat - s.contents.length < if s.checksummed then 4 else 16) := by
  refine ⟨?_, fun s => ?_⟩
  · intro k value hk hvalue
    have halignment : (UInt32.ofNat (2 ^ k)).toNat = 2 ^ k :=
      UInt32.toNat_ofNat_of_lt' (Nat.pow_lt_pow_right (by decide) hk)
    have hlt := leastMultiple_lt (Nat.two_pow_pos k) value.toNat
    refine ⟨_, by rw [roundUp_eq a halignment hk hvalue.le, if_neg fun h => hvalue.ne h.2], ?_⟩
    rw [UInt32.toNat_ofNat_of_lt' (Nat.lt_trans hlt hvalue)]
    exact isLeast_leastMultiple (Nat.two_pow_pos k) value.toNat
  · have hlongest : s.Longest ↔ s.contents.length = 2 ^ 32 - if s.checksummed then 4 else 16 := by
      rw [Section.Longest, s.toNat_alignment]
    rw [← Section.not_tooLong_iff_exists_multiple, Ne, ← hlongest, Section.paddedLength_eq]
    by_cases hlong : s.TooLong
    · simp [hlong, hlong.not_longest]
    · have hsize := Section.toNat_ofNat_paddedSize hlong
      have hle := s.length_le_paddedSize
      have hlt := s.paddedSize_lt_add
      by_cases hstop : a = .checked ∧ s.Longest
      · simp [hlong, hstop]
      · have hpadding : s.paddedSize - s.contents.length < if s.checksummed then 4 else 16 := by omega
        simpa [hlong, hstop, hsize] using fun _ => ⟨s.isLeast_paddedSize, hpadding⟩

/-- The last value that is rounded up, and the last section that gets a length. -/
theorem rounding_isLeast_last :
    let last : Section := { name := ".text", loadAddress := 0, contents := List.replicate (2 ^ 32 - 5) 1 }
    (∃ rounded, roundUp .checked 4294967279 (UInt32.ofNat (2 ^ 4)) = some rounded ∧
      IsLeast {n | 2 ^ 4 ∣ n ∧ 4294967279 ≤ n} rounded.toNat) ∧
      ∃ length, last.paddedLength .checked = .ok length ∧ IsLeast last.multiples length.toNat := by
  intro last
  obtain ⟨hvalues, hsections⟩ := rounding_isLeast .checked
  refine ⟨hvalues 4 4294967279 (by decide) (by decide), ?_⟩
  obtain ⟨-, -, hlength⟩ := hsections last
  have hlast : last.contents.length = 2 ^ 32 - 5 := List.length_replicate
  have hmultiple : ∃ n ∈ last.multiples, n < 2 ^ 32 :=
    ⟨2 ^ 32 - 4, ⟨by decide, by rw [hlast]; decide⟩, by decide⟩
  have hshorter : last.contents.length ≠ 2 ^ 32 - if last.checksummed then 4 else 16 := by
    rw [hlast]
    decide
  obtain ⟨length, hpadded, hleast, -⟩ := hlength hmultiple fun _ => hshorter
  exact ⟨length, hpadded, hleast⟩

/-- The longest sections of either alignment that are not refused fill words without padding, and yet get no
length. -/
theorem longest_overflows :
    let text : Section := { name := ".text", loadAddress := 0, contents := List.replicate (2 ^ 32 - 4) 1 }
    let raw : Section :=
      { name := "raw", loadAddress := 0, contents := List.replicate (2 ^ 32 - 16) 1, checksummed := false }
    (IsLeast text.multiples 4294967292 ∧ text.paddedLength .checked = .error .overflow) ∧
      IsLeast raw.multiples 4294967280 ∧ raw.paddedLength .checked = .error .overflow := by
  intro text raw
  have htext : text.contents.length = 2 ^ 32 - 4 := List.length_replicate
  have hraw : raw.contents.length = 2 ^ 32 - 16 := List.length_replicate
  refine ⟨⟨⟨⟨by decide, by rw [htext]; decide⟩, ?_⟩, ?_⟩, ⟨⟨by decide, by rw [hraw]; decide⟩, ?_⟩, ?_⟩
  · rintro n ⟨-, hn⟩
    rwa [htext] at hn
  · rw [Section.paddedLength, htext]
    decide
  · rintro n ⟨-, hn⟩
    rwa [hraw] at hn
  · rw [Section.paddedLength, hraw]
    decide

end BootImage
