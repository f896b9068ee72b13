import BootImage.Proofs.Padding
import BootImage.Proofs.Verdict

/-!
# Changing a byte of the content

An accepted file is rejected once one byte of its magic number, of a segment's data or of the checksum is
changed.

* (the sum) Changing one byte changes the checksum that is called for: `xorSum_set_ne`.
* (the walk) A change of data or checksum leaves the headers alone, so the changed file decodes to the same
  segments but for this byte: `Image.encode_set_data`, `Image.encode_set_checksum`.  Hence exactly one of the
  stored and the computed checksum has changed, and the image does not verify.
* (the magic number) Every accepted file starts with it: `Image.head?_of_accepted`.
-/

namespace BootImage

/-! ### The sum -/

private theorem xorSum_injective (bytes : Bytes) : Function.Injective (xorSum · bytes) := by
  intro a b h
  have hsum : a ^^^ xorSum 0 bytes = b ^^^ xorSum 0 bytes := by
    rw [← xorSum_eq_xor, ← xorSum_eq_xor]
    exact h
  exact (UInt8.xor_left_inj _).1 hsum

theorem xorSum_set_ne {bytes : Bytes} {k : Nat} (hk : k < bytes.length) {value : UInt8}
    (hvalue : bytes[k] ≠ value) (start : UInt8) : xorSum start (bytes.set k value) ≠ xorSum start bytes := by
  induction bytes generalizing k start with
  | nil => exact absurd hk (Nat.not_lt_zero k)
  | cons b bytes ih =>
    cases k with
    | zero =>
      intro h
      rw [List.set_cons_zero, xorSum_cons, xorSum_cons] at h
      have hstart := xorSum_injective bytes h
      exact hvalue ((UInt8.xor_right_inj start).1 hstart).symm
    | succ k =>
      rw [List.set_cons_succ, xorSum_cons, xorSum_cons]
      exact ih (Nat.lt_of_succ_lt_succ hk) hvalue _

namespace Segment

def setByte (s : Segment) (k : Nat) (value : UInt8) : Segment := { s with data := s.data.set k value }

@[simp] private theorem header_setByte (s : Segment) (k : Nat) (value : UInt8) :
    (s.setByte k value).header = s.header := by
  rw [header, setByte, List.length_set]
  rfl

private theorem Loadable.setByte {s : Segment} (h : s.Loadable) (k : Nat) (value : UInt8) :
    (s.setByte k value).Loadable := by
  have hlength : (s.setByte k value).data.length = s.data.length := List.length_set
  refine ⟨?_, by rw [hlength]; exact h.2⟩
  rw [← List.length_pos_iff, hlength, List.length_pos_iff]
  exact h.1

end Segment

namespace Image

/-! ### The changed file -/

/-- A segment whose data are reported at an offset stands there, behind the header, the segments before it and
its own segment header. -/
private theorem exists_of_mem_placements {i : Image} {p : Nat × Segment} (hp : p ∈ i.placements) :
    ∃ before after, i.segments = before ++ p.2 :: after ∧
      p.1 = (i.header.encode ++ before.flatMap Segment.encode ++ p.2.header.encode).length := by
  rw [placements_eq_mapIdx, List.mem_mapIdx] at hp
  obtain ⟨k, hk, rfl⟩ := hp
  refine ⟨i.segments.take k, i.segments.drop (k + 1), ?_, ?_⟩
  · rw [← List.drop_eq_getElem_cons hk, List.take_append_drop]
  · rw [length_body, List.length_append, List.length_append, Header.length_encode, length_flatMap_encode,
      SegmentHeader.length_encode]
    rfl

/-- Changing a byte of a segment's data changes nothing else. -/
theorem encode_set_data (header : Header) (before after : List Segment) (s : Segment) (padding : Bytes)
    (checksum : UInt8) {k : Nat} (hk : k < s.data.length) (value : UInt8) :
    (encode ⟨header, before ++ s :: after, padding, checksum⟩).set
        ((header.encode ++ before.flatMap Segment.encode ++ s.header.encode).length + k) value =
      encode ⟨header, before ++ s.setByte k value :: after, padding, checksum⟩ := by
  have hsplit (s : Segment) : encode ⟨header, before ++ s :: after, padding, checksum⟩ =
      header.encode ++ before.flatMap Segment.encode ++ s.header.encode ++ s.data ++
        (after.flatMap Segment.encode ++ padding ++ [checksum]) := by
    simp [encode, Segment.encode]
  rw [hsplit, hsplit, set_middle _ _ _ hk, Segment.header_setByte]
  rfl

theorem encode_set_checksum (i : Image) (value : UInt8) :
    i.encode.set (i.encode.length - 1) value = { i with checksum := value }.encode := by
  have hlength : i.encode.length - 1 =
      (i.header.encode ++ i.segments.flatMap Segment.encode ++ i.padding).length + 0 := by
    rw [encode, List.length_append, List.length_singleton]
    rfl
  have h := set_middle (i.header.encode ++ i.segments.flatMap Segment.encode ++ i.padding) [i.checksum] []
    (k := 0) Nat.zero_lt_one value
  rw [List.append_nil, List.append_nil] at h
  rw [hlength, encode, h]
  rfl

/-! ### The verdict -/

/-- A readable image is what its file decodes to, so its own verdict decides. -/
private theorem accepted_encode_iff {i : Image} (hread : i.Readable) :
    Accepted i.encode ↔ i.verify = .ok () := by
  have hdecode : decode i.encode = .ok i := decode_eq_ok_iff.2 ⟨rfl, hread⟩
  constructor
  · rintro ⟨j, hj, hverify⟩
    rw [hdecode, Except.ok.injEq] at hj
    rwa [hj]
  · intro hverify
    exact ⟨i, hdecode, hverify⟩

theorem head?_of_accepted {bytes : Bytes} (h : Accepted bytes) : bytes.head? = some imageMagic := by
  obtain ⟨header, segments, hallowed, rfl⟩ := accepted_iff.1 h
  rw [← hallowed.magic]
  rfl

private theorem not_accepted_set_magic {bytes : Bytes} {value : UInt8} (hvalue : value ≠ imageMagic) :
    ¬Accepted (bytes.set 0 value) := by
  intro h
  have hhead := head?_of_accepted h
  cases bytes with
  | nil => contradiction
  | cons b bytes =>
    rw [List.set_cons_zero, List.head?_cons, Option.some.injEq] at hhead
    exact hvalue hhead

private theorem not_accepted_set_checksum {i : Image} (hread : i.Readable) (hverify : i.verify = .ok ())
    {value : UInt8} (hvalue : i.checksum ≠ value) : ¬Accepted (i.encode.set (i.encode.length - 1) value) := by
  have hread' : { i with checksum := value }.Readable := ⟨hread.toAllowed, hread.stops⟩
  rw [encode_set_checksum, accepted_encode_iff hread']
  intro hverify'
  have hstored : i.checksum = i.computedChecksum := (verify_iff_checks.1 hverify).2.2.2
  have hstored' : value = i.computedChecksum := (verify_iff_checks.1 hverify').2.2.2
  exact hvalue (hstored.trans hstored'.symm)

private theorem Readable.setByte {header : Header} {before after : List Segment} {s : Segment}
    {padding : Bytes} {checksum : UInt8} (h : Readable ⟨header, before ++ s :: after, padding, checksum⟩)
    (k : Nat) (value : UInt8) :
    Readable ⟨header, before ++ s.setByte k value :: after, padding, checksum⟩ := by
  have hlength : (before ++ s.setByte k value :: after).length = (before ++ s :: after).length := by simp
  refine ⟨⟨h.magic, ?_, ?_⟩, ?_⟩
  · rw [hlength]
    exact h.count
  · have hloadable := h.loadable
    simp only [List.forall_mem_append, List.forall_mem_cons] at hloadable ⊢
    exact ⟨hloadable.1, hloadable.2.1.setByte k value, hloadable.2.2⟩
  · rw [hlength]
    exact h.stops

/-- The computed checksum takes every byte of the data once. -/
private theorem computedChecksum_setByte_ne (header : Header) (before after : List Segment) {s : Segment}
    (padding : Bytes) (checksum : UInt8) {k : Nat} (hk : k < s.data.length) {value : UInt8}
    (hvalue : s.data[k] ≠ value) :
    computedChecksum ⟨header, before ++ s.setByte k value :: after, padding, checksum⟩ ≠
      computedChecksum ⟨header, before ++ s :: after, padding, checksum⟩ := by
  simp only [computedChecksum, List.flatMap_append, List.flatMap_cons, xorSum_append]
  intro h
  exact xorSum_set_ne hk hvalue _ (xorSum_injective _ h)

private theorem not_accepted_set_data {i : Image} (hread : i.Readable) (hverify : i.verify = .ok ())
    {p : Nat × Segment} (hp : p ∈ i.placements) {k : Nat} (hk : k < p.2.data.length) {value : UInt8}
    (hvalue : p.2.data[k] ≠ value) :
    ¬Accepted (i.encode.set (p.1 + k) value) := by
  obtain ⟨before, after, hsegments, hoffset⟩ := exists_of_mem_placements hp
  obtain ⟨header, segments, padding, checksum⟩ := i
  obtain rfl : segments = before ++ p.2 :: after := hsegments
  rw [hoffset, encode_set_data _ _ _ _ _ _ hk, accepted_encode_iff (hread.setByte k value)]
  intro hverify'
  have hstored := (verify_iff_checks.1 hverify).2.2.2
  have hstored' := (verify_iff_checks.1 hverify').2.2.2
  exact computedChecksum_setByte_ne header before after padding checksum hk hvalue
    (hstored'.symm.trans hstored)

/-- An accepted file is rejected once its magic number, a byte of a segment's data or its checksum is
changed. -/
theorem not_accepted_set {bytes : Bytes} {i : Image} (hdecode : decode bytes = .ok i)
    (hverify : i.verify = .ok ()) {index : Nat}
    (hindex : index = 0 ∨ (∃ p ∈ i.placements, p.1 ≤ index ∧ index < p.1 + p.2.data.length) ∨
      index = bytes.length - 1)
    {value : UInt8} (hvalue : bytes[index]? ≠ some value) :
    ¬Accepted (bytes.set index value) := by
  have haccepted : Accepted bytes := ⟨i, hdecode, hverify⟩
  obtain ⟨rfl, hread⟩ := decode_eq_ok_iff.1 hdecode
  rcases hindex with rfl | ⟨p, hp, hle, hlt⟩ | rfl
  · rw [← List.head?_eq_getElem?, head?_of_accepted haccepted] at hvalue
    exact not_accepted_set_magic fun h => hvalue (congrArg some h.symm)
  · obtain ⟨k, rfl⟩ := Nat.exists_eq_add_of_le hle
    have hk : k < p.2.data.length := by omega
    refine not_accepted_set_data hread hverify hp hk ?_
    have hslice := slice_placements i p hp
    intro h
    apply hvalue
    rw [← h, ← List.getElem?_eq_getElem hk]
    conv => rhs; rw [← hslice]
    rw [List.getElem?_take_of_lt hk, List.getElem?_drop]
  · rw [← List.getLast?_eq_getElem?, getLast?_encode] at hvalue
    exact not_accepted_set_checksum hread hverify fun h => hvalue (congrArg some h)

/-- The second byte of the data of a file with one segment. -/
theorem not_accepted_set_four :
    let i : Image := ⟨{ entry := 0x100 }, [⟨0x2000, [9, 8, 7, 0]⟩], List.replicate 11 0, 0xE9⟩
    decode i.encode = .ok i ∧ i.verify = .ok () ∧ ∀ value ≠ 8, ¬Accepted (i.encode.set 17 value) := by
  intro i
  have hdecode : decode i.encode = .ok i := by decide
  have hverify : i.verify = .ok () := by decide
  refine ⟨hdecode, hverify, ?_⟩
  intro value hvalue
  have hbyte : i.encode[17]? = some 8 := by decide
  refine not_accepted_set hdecode hverify (.inr (.inl ⟨(16, ⟨0x2000, [9, 8, 7, 0]⟩), ?_, ?_, ?_⟩)) ?_
  · decide
  · decide
  · decide
  · rw [hbyte]
    exact fun h => hvalue (Option.some.inj h).symm

end Image

end BootImage
