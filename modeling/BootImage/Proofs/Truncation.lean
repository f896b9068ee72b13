import BootImage.Proofs.Acceptance

/-!
# Cutting a file short, and adding bytes to it

If a file and a beginning of it both decode, the walk takes the segments of the beginning in both.

* (beginnings) What the longer file decodes to starts with the header and the segments of the shorter one:
  `Image.segments_of_decode_append`.
* (cutting) A beginning of an accepted file is accepted exactly if it is the complete file of some of the
  first segments: `Image.accepted_take_iff`.  Then it ends inside the header of the next segment or right
  behind it: `Image.bounds_of_take_eq_closed`.
* (adding) If the format byte allows no further segment, nothing can stand behind the file:
  `Image.not_accepted_append`.
-/

namespace BootImage

namespace Image

/-! ### Beginnings -/

/-- Behind the end of a file that decodes, the walk goes on where it stopped in the file. -/
theorem segments_of_decode_append {i j : Image} (hread : i.Readable) {behind : Bytes}
    (h : decode (i.encode ++ behind) = .ok j) : j.header = i.header ∧ i.segments <+: j.segments := by
  obtain rfl | ⟨rest, checksum, rfl⟩ := List.eq_nil_or_concat' behind
  · have hdecode : decode i.encode = .ok i := decode_eq_ok_iff.2 ⟨rfl, hread⟩
    rw [List.append_nil, hdecode, Except.ok.injEq] at h
    rw [h]
    exact ⟨rfl, List.prefix_rfl⟩
  · -- the old checksum byte is read like padding now
    have hlonger : i.encode ++ (rest ++ [checksum]) =
        encode ⟨i.header, i.segments, i.padding ++ [i.checksum] ++ rest, checksum⟩ := by
      simp [encode]
    rw [hlonger] at h
    obtain ⟨found, padding, rfl, -⟩ := exists_of_decode_encode hread.toAllowed h
    exact ⟨rfl, List.prefix_append _ _⟩

/-- Images that verify and have the same header and segments are the same. -/
private theorem eq_of_verify {i j : Image} (hi : i.verify = .ok ()) (hj : j.verify = .ok ())
    (hheader : j.header = i.header) (hsegments : j.segments = i.segments) : j = i := by
  rw [verify_eq_ok_iff.1 hi, verify_eq_ok_iff.1 hj, hheader, hsegments]

/-! ### Cutting -/

theorem accepted_take_iff {i : Image} (hread : i.Readable) (hverify : i.verify = .ok ()) {k : Nat}
    (hk : k < i.encode.length) :
    Accepted (i.encode.take k) ↔
      ∃ count < i.segments.length, i.encode.take k = (closed i.header (i.segments.take count)).encode := by
  constructor
  · rintro ⟨j, hdecode, hverify'⟩
    obtain ⟨hencode, hread'⟩ := decode_eq_ok_iff.1 hdecode
    have hwhole : decode (j.encode ++ i.encode.drop k) = .ok i := by
      rw [hencode, List.take_append_drop]
      exact decode_eq_ok_iff.2 ⟨rfl, hread⟩
    obtain ⟨hheader, hfirst⟩ := segments_of_decode_append hread' hwhole
    have hsegments : j.segments = i.segments.take j.segments.length := List.prefix_iff_eq_take.1 hfirst
    refine ⟨j.segments.length, ?_, ?_⟩
    · -- otherwise nothing was cut off
      by_contra hall
      have hsame : j.segments = i.segments := hfirst.eq_of_length_le (Nat.not_lt.1 hall)
      have hlength := congrArg List.length hencode
      rw [eq_of_verify hverify hverify' hheader.symm hsame, List.length_take] at hlength
      omega
    · rw [← hencode, hheader, ← hsegments, ← verify_eq_ok_iff.1 hverify']
  · rintro ⟨count, hcount, htake⟩
    refine accepted_iff.2 ⟨i.header, i.segments.take count, ⟨hread.magic, ?_, ?_⟩, htake⟩
    · exact (List.length_take_le' count i.segments).trans hread.count
    · exact fun s hs => hread.loadable s (List.mem_of_mem_take hs)

/-- The first four bytes of a segment header may be read as zeros and a checksum byte. -/
example :
    let i : Image := ⟨{ entry := 0x100 }, [⟨0x1000, List.replicate 12 0⟩, ⟨0xEF000000, [1, 2, 3, 4]⟩],
      List.replicate 7 0, 0xEB⟩
    (decode i.encode = .ok i ∧ i.verify = .ok ()) ∧ Accepted (i.encode.take 32) := by
  refine ⟨by decide, ?_⟩
  exact ⟨⟨{ entry := 0x100 }, [⟨0x1000, List.replicate 12 0⟩], List.replicate 3 0,
    0xEF⟩, by decide, by decide⟩

/-- A file is cut where the complete file of its first segments ends. This is behind the start of the next
segment's header, and not far behind it, since the length in this header is not zero. -/
theorem bounds_of_take_eq_closed {i : Image} (hread : i.Readable) {k : Nat} (hk : k < i.encode.length)
    {count : Nat} (hcount : count < i.segments.length)
    (htake : i.encode.take k = (closed i.header (i.segments.take count)).encode) :
    (body i.header (i.segments.take count)).length < k ∧
      k ≤ (body i.header (i.segments.take count)).length + 8 := by
  have hclosed := htake.trans (encode_closed i.header (i.segments.take count))
  have hnext := encode_eq_body_append i count
  rw [List.drop_eq_getElem_cons hcount, List.flatMap_cons] at hnext
  generalize body i.header (i.segments.take count) = front at hclosed hnext ⊢
  have hlength := congrArg List.length hclosed
  rw [List.length_take, Nat.min_eq_left hk.le, List.length_append, List.length_append, List.length_replicate,
    List.length_singleton] at hlength
  refine ⟨by omega, ?_⟩
  by_contra hfar
  -- then the next segment's header stands where the complete file has eight zeros
  rw [← List.take_append_drop k i.encode, hclosed] at hnext
  simp only [List.append_assoc] at hnext
  have hzeros : 8 ≤ tailPadding front.length := by omega
  exact encode_append_ne_zeros_append (hread.loadable _ (List.getElem_mem hcount)) hzeros _ _
    (List.append_cancel_left hnext).symm

private theorem mem_placements {i : Image} {count : Nat} (hcount : count < i.segments.length) :
    ((body i.header (i.segments.take count)).length + 8, i.segments[count]) ∈ i.placements := by
  rw [placements_eq_mapIdx, List.mem_mapIdx]
  exact ⟨count, hcount, rfl⟩

/-- A beginning of an accepted file is rejected, unless it ends inside or right behind a segment's header. -/
theorem not_accepted_take {bytes : Bytes} {i : Image} (hdecode : decode bytes = .ok i)
    (hverify : i.verify = .ok ()) {k : Nat} (hk : k < bytes.length)
    (hcut : ∀ p ∈ i.placements, ¬(p.1 - 8 < k ∧ k ≤ p.1)) :
    ¬Accepted (bytes.take k) := by
  obtain ⟨rfl, hread⟩ := decode_eq_ok_iff.1 hdecode
  rw [accepted_take_iff hread hverify hk]
  rintro ⟨count, hcount, htake⟩
  refine hcut _ (mem_placements hcount) ?_
  rw [Nat.add_sub_cancel]
  exact bounds_of_take_eq_closed hread hk hcount htake

/-- The end of a block inside the data of the second segment. -/
theorem not_accepted_take_thirty_two :
    let i : Image := ⟨{ entry := 0x100 }, [⟨0x1000, [1, 2, 3, 4]⟩, ⟨0x2000, [5, 6, 7, 8, 9, 10, 11, 12]⟩],
      List.replicate 11 0, 0xE3⟩
    decode i.encode = .ok i ∧ i.verify = .ok () ∧ 32 < i.encode.length ∧ ¬Accepted (i.encode.take 32) := by
  intro i
  have hdecode : decode i.encode = .ok i := by decide
  have hverify : i.verify = .ok () := by decide
  have hbound : 32 < i.encode.length := by decide
  exact ⟨hdecode, hverify, hbound, not_accepted_take hdecode hverify hbound (by decide)⟩

/-! ### Adding -/

/-- Nothing can be added to an accepted file that has all segments its format byte allows. -/
theorem not_accepted_append {bytes : Bytes} {i : Image} (hdecode : decode bytes = .ok i)
    (hverify : i.verify = .ok ()) (hfull : i.segments.length = i.header.format.toNat) {behind : Bytes}
    (hbehind : behind ≠ []) : ¬Accepted (bytes ++ behind) := by
  obtain ⟨rfl, hread⟩ := decode_eq_ok_iff.1 hdecode
  rintro ⟨j, hdecode', hverify'⟩
  obtain ⟨hheader, hfirst⟩ := segments_of_decode_append hread hdecode'
  obtain ⟨hencode, hread'⟩ := decode_eq_ok_iff.1 hdecode'
  have hcount : j.segments.length ≤ i.segments.length := by
    rw [hfull, ← hheader]
    exact hread'.count
  have hsame : j.segments = i.segments := (hfirst.eq_of_length_le hcount).symm
  rw [eq_of_verify hverify hverify' hheader hsame, List.self_eq_append_right] at hencode
  exact hbehind hencode

/-- A further block, with zeros and the same checksum byte. -/
theorem not_accepted_append_block :
    let i : Image := ⟨{ format := 1, entry := 0x100 }, [⟨0x2000, [9, 8, 7, 0]⟩], List.replicate 11 0, 0xE9⟩
    decode i.encode = .ok i ∧ i.verify = .ok () ∧ i.segments.length = i.header.format.toNat ∧
      ¬Accepted (i.encode ++ (List.replicate 15 0 ++ [0xE9])) := by
  intro i
  have hdecode : decode i.encode = .ok i := by decide
  have hverify : i.verify = .ok () := by decide
  exact ⟨hdecode, hverify, rfl, not_accepted_append hdecode hverify rfl (by decide)⟩

end Image

end BootImage
