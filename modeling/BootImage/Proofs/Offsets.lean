import BootImage.Proofs.Acceptance

/-!
# The walk by offsets

The boot loader's walk told by offsets into the file, with the words that stand there.

* (positions) `Image.Reaches` says which offsets the walk comes to, and after how many segments.  In a file
  that decodes these are the starts of the reported segments' headers and the end of the data:
  `Image.reaches_encode_iff`.
* (overruns) The walk fails exactly when it meets a segment that runs into the checksum byte:
  `Image.overruns_of_walk`, `Image.not_overruns_encode`.
* (bounds) Nothing is read beyond the end of the file: `Image.Reads.bounds`.
-/

namespace BootImage

def wordAt (bytes : Bytes) (offset : Nat) : UInt32 :=
  word (bytes.getD offset 0) (bytes.getD (offset + 1) 0) (bytes.getD (offset + 2) 0)
    (bytes.getD (offset + 3) 0)

namespace Image

/-- The walk goes on at an offset: one more segment is allowed, a segment header fits in front of the checksum
byte, and the length in it is not zero. -/
structure GoesOn (bytes : Bytes) (taken offset : Nat) : Prop where
  count : taken < (bytes.getD 1 0).toNat
  room : offset + 8 ≤ bytes.length - 1
  length : wordAt bytes (offset + 4) ≠ 0

def segmentEnd (bytes : Bytes) (offset : Nat) : Nat := offset + 8 + (wordAt bytes (offset + 4)).toNat

/-- The walk comes to an offset after it has taken a number of segments. -/
inductive Reaches (bytes : Bytes) : Nat → Nat → Prop
  | start : Reaches bytes 0 8
  | step {taken offset : Nat} : Reaches bytes taken offset → GoesOn bytes taken offset →
      segmentEnd bytes offset ≤ bytes.length - 1 → Reaches bytes (taken + 1) (segmentEnd bytes offset)

/-- The walk meets a segment that runs into the checksum byte. -/
def Overruns (bytes : Bytes) : Prop :=
  ∃ taken offset, Reaches bytes taken offset ∧ GoesOn bytes taken offset ∧
    bytes.length - 1 < segmentEnd bytes offset

/-- The walk reads the bytes from one offset up to another: a segment header, a segment's data, or the padding
that is left when it stops. -/
inductive Reads (bytes : Bytes) : Nat → Nat → Prop
  | header {taken offset : Nat} : Reaches bytes taken offset → taken < (bytes.getD 1 0).toNat →
      offset + 8 ≤ bytes.length - 1 → Reads bytes offset (offset + 8)
  | data {taken offset : Nat} : Reaches bytes taken offset → GoesOn bytes taken offset →
      segmentEnd bytes offset ≤ bytes.length - 1 → Reads bytes (offset + 8) (segmentEnd bytes offset)
  | padding {taken offset : Nat} : Reaches bytes taken offset → ¬GoesOn bytes taken offset →
      Reads bytes offset (bytes.length - 1)

end Image

/-! ### Words and headers at offsets -/

private theorem wordAt_append (before after : Bytes) (w : UInt32) :
    wordAt (before ++ wordBytes w ++ after) before.length = w := by
  have hbyte (k : Nat) (hk : k < 4) :
      (before ++ wordBytes w ++ after).getD (before.length + k) 0 = (wordBytes w).getD k 0 := by
    rw [List.append_assoc, List.getD_append_right _ _ _ _ (Nat.le_add_right _ _), Nat.add_sub_cancel_left,
      List.getD_append _ _ _ _ hk]
  have h := word_wordBytes w
  rw [wordAt, ← Nat.add_zero before.length, hbyte 0 (by omega), Nat.add_zero, hbyte 1 (by omega),
    hbyte 2 (by omega), hbyte 3 (by omega)]
  exact h

namespace SegmentHeader

private theorem length_of_decode? {bytes tail : Bytes} {sub : SegmentHeader}
    (h : decode? bytes = some (sub, tail)) :
    bytes.length = 8 + tail.length := by
  rw [eq_encode_of_decode? h, List.length_append, length_encode, size]

private theorem decode?_eq_none_iff {bytes : Bytes} : decode? bytes = none ↔ bytes.length < 8 := by
  constructor
  · intro h
    by_contra hlong
    rw [Nat.not_lt] at hlong
    match bytes, hlong with
    | _ :: _ :: _ :: _ :: _ :: _ :: _ :: _ :: _, _ => contradiction
  · intro hshort
    cases h : decode? bytes with
    | none => rfl
    | some found =>
      have hlong := length_of_decode? h
      omega

/-- The length in a segment header stands four bytes behind its start. -/
private theorem wordAt_of_decode? {rest : Bytes} {sub : SegmentHeader} {tail : Bytes}
    (h : decode? rest = some (sub, tail)) (front behind : Bytes) :
    wordAt (front ++ rest ++ behind) (front.length + 4) = sub.length := by
  have hsplit : front ++ rest ++ behind =
      front ++ wordBytes sub.loadAddress ++ wordBytes sub.length ++ (tail ++ behind) := by
    rw [eq_encode_of_decode? h, encode]
    simp only [List.append_assoc]
  have hlength : front.length + 4 = (front ++ wordBytes sub.loadAddress).length := by
    rw [List.length_append, length_wordBytes]
  rw [hsplit, hlength, wordAt_append]

end SegmentHeader

namespace Image

section Positions

variable {bytes front rest : Bytes} {checksum : UInt8} (hbytes : front ++ rest ++ [checksum] = bytes)

include hbytes

private theorem length_of_split : bytes.length - 1 = front.length + rest.length := by
  rw [← hbytes, List.length_append, List.length_append, List.length_singleton, Nat.add_sub_cancel]

/-- Whether the walk goes on is seen from what stands between the offset and the checksum byte. -/
private theorem goesOn_iff {taken : Nat} :
    GoesOn bytes taken front.length ↔ ¬Stops ((bytes.getD 1 0).toNat - taken) rest := by
  have hlimit := length_of_split hbytes
  constructor
  · rintro ⟨hcount, hroom, hlength⟩ (hmore | hzero)
    · omega
    · cases h : SegmentHeader.decode? rest with
      | none =>
        have hshort := SegmentHeader.decode?_eq_none_iff.1 h
        omega
      | some found =>
        have hword := SegmentHeader.wordAt_of_decode? h front [checksum]
        rw [hbytes] at hword
        rw [hword] at hlength
        exact hlength (hzero found.1 found.2 h)
  · intro hstops
    obtain ⟨sub, tail, h, hne⟩ := exists_of_not_stops hstops
    have hlong := SegmentHeader.length_of_decode? h
    have hword := SegmentHeader.wordAt_of_decode? h front [checksum]
    rw [hbytes] at hword
    refine ⟨?_, by omega, ?_⟩
    · by_contra hcount
      exact hstops (.inl (by omega))
    · rw [hword]
      exact hne

private theorem segmentEnd_of_decode? {sub : SegmentHeader} {tail : Bytes}
    (h : SegmentHeader.decode? rest = some (sub, tail)) :
    segmentEnd bytes front.length = front.length + 8 + sub.length.toNat := by
  have hword := SegmentHeader.wordAt_of_decode? h front [checksum]
  rw [hbytes] at hword
  rw [segmentEnd, hword]

end Positions

private theorem segmentEnd_append {s : Segment} (h : s.Loadable) (front behind : Bytes) (checksum : UInt8) :
    segmentEnd (front ++ (s.encode ++ behind) ++ [checksum]) front.length = front.length + s.extent := by
  rw [segmentEnd_of_decode? rfl (decode?_segment s behind), toNat_length_header h, Nat.add_assoc]
  rfl

/-! ### Overruns -/

/-- A walk that fails has met a segment that overruns. -/
theorem overruns_of_walk {bytes front rest : Bytes} {checksum : UInt8} {limit taken more : Nat}
    {e : DecodeError} (hbytes : front ++ rest ++ [checksum] = bytes)
    (hcount : (bytes.getD 1 0).toNat = taken + more) (hreach : Reaches bytes taken front.length)
    (h : walk limit taken more rest = .error e) : Overruns bytes := by
  induction more generalizing front rest taken e with
  | zero => contradiction
  | succ more ih =>
    by_cases hstop : Stops (more + 1) rest
    · rw [walk_of_stops hstop] at h
      contradiction
    · obtain ⟨sub, tail, hsub, hne⟩ := exists_of_not_stops hstop
      have hmore : (bytes.getD 1 0).toNat - taken = more + 1 := by omega
      have hgoes : GoesOn bytes taken front.length := by
        rw [goesOn_iff hbytes, hmore]
        exact hstop
      have hend := segmentEnd_of_decode? hbytes hsub
      have hlimit := length_of_split hbytes
      have hrest := SegmentHeader.length_of_decode? hsub
      by_cases hfits : sub.length.toNat ≤ tail.length
      · obtain ⟨hloadable, hsplit⟩ := segment_of_decode? hsub hne hfits
        generalize Segment.mk sub.loadAddress (tail.take sub.length.toNat) = s at hloadable hsplit
        rw [hsplit, walk_cons hloadable] at h
        cases hwalk : walk limit (taken + 1) more (tail.drop sub.length.toNat) with
        | ok found =>
          rw [hwalk] at h
          contradiction
        | error e' =>
          -- the walk goes on behind the segment
          have hnext := hreach.step hgoes (by omega)
          have hfront : segmentEnd bytes front.length = (front ++ s.encode).length := by
            rw [← hbytes, hsplit, segmentEnd_append hloadable, List.length_append, Segment.length_encode]
          have hbehind : front ++ s.encode ++ tail.drop sub.length.toNat ++ [checksum] = bytes := by
            rw [← hbytes, hsplit, ← List.append_assoc front]
          rw [hfront] at hnext
          exact ih hbehind (by omega) hnext hwalk
      · exact ⟨taken, front.length, hreach, hgoes, by omega⟩

private theorem exists_split_of_size {bytes : Bytes} (h : 8 < bytes.length) :
    ∃ header rest checksum, bytes = Header.encode header ++ rest ++ [checksum] := by
  match bytes, h with
  | magic :: format :: r₀ :: r₁ :: e₀ :: e₁ :: e₂ :: e₃ :: b :: tail, _ =>
    have hne : b :: tail ≠ [] := List.cons_ne_nil b tail
    refine ⟨⟨magic, format, (r₀, r₁), word e₀ e₁ e₂ e₃⟩, (b :: tail).dropLast, (b :: tail).getLast hne, ?_⟩
    rw [List.append_assoc, List.dropLast_append_getLast hne, Header.encode, wordBytes_word]
    rfl

theorem overruns_of_decode {bytes : Bytes} (hsize : 8 < bytes.length) (hmagic : bytes[0]? = some imageMagic)
    {e : DecodeError} (h : decode bytes = .error e) : Overruns bytes := by
  obtain ⟨header, rest, checksum, rfl⟩ := exists_split_of_size hsize
  have hheader : header.magic = imageMagic := Option.some.inj hmagic
  rw [decode_append, if_pos hheader] at h
  cases hwalk : walk (header.encode ++ rest).length 0 header.format.toNat rest with
  | ok found =>
    rw [hwalk] at h
    contradiction
  | error e' =>
    have hformat : (header.encode ++ rest ++ [checksum]).getD 1 0 = header.format := rfl
    refine overruns_of_walk rfl ?_ .start hwalk
    rw [hformat, Nat.zero_add]

/-! ### Files that decode -/

def position (i : Image) (taken : Nat) : Nat := Header.size + extent (i.segments.take taken)

theorem position_length (i : Image) : i.position i.segments.length = i.dataEnd := by
  rw [position, List.take_length, dataEnd]

private theorem position_succ {i : Image} {taken : Nat} (h : taken < i.segments.length) :
    i.position (taken + 1) = i.position taken + i.segments[taken].extent := by
  rw [position, List.take_succ_eq_append_getElem h, extent_append, ← Nat.add_assoc]
  rfl

private theorem position_le (i : Image) (taken : Nat) : i.position taken ≤ i.encode.length - 1 := by
  have hextent := extent_append (i.segments.take taken) (i.segments.drop taken)
  rw [List.take_append_drop] at hextent
  rw [length_encode, size, dataEnd, position]
  omega

/-- The file up to a position, and behind it. -/
private theorem exists_split_encode (i : Image) (taken : Nat) :
    ∃ front, front.length = i.position taken ∧
      i.encode = front ++ ((i.segments.drop taken).flatMap Segment.encode ++ i.padding) ++ [i.checksum] :=
  ⟨body i.header (i.segments.take taken), length_body _ _, encode_eq_body_append i taken⟩

section Readable

variable {i : Image} (hread : i.Readable) {taken : Nat}

include hread

theorem goesOn_position (h : taken ≤ i.segments.length) :
    GoesOn i.encode taken (i.position taken) ↔ taken < i.segments.length := by
  obtain ⟨front, hfront, hencode⟩ := exists_split_encode i taken
  have hformat : i.encode.getD 1 0 = i.header.format := rfl
  rw [← hfront, goesOn_iff hencode.symm, hformat]
  constructor
  · intro hstops
    by_contra hlast
    obtain rfl : taken = i.segments.length := by omega
    rw [List.drop_length, List.flatMap_nil, List.nil_append] at hstops
    exact hstops hread.stops
  · intro hlt
    have hcount := hread.count
    have hs := hread.loadable _ (List.getElem_mem hlt)
    rw [List.drop_eq_getElem_cons hlt, List.flatMap_cons, List.append_assoc (Segment.encode _)]
    rintro (hmore | hzero)
    · omega
    · have hlength := hzero _ _ (decode?_segment _ _)
      have hpos : 0 < i.segments[taken].data.length := List.length_pos_iff.2 hs.1
      rw [← toNat_length_header hs, hlength] at hpos
      contradiction

private theorem segmentEnd_position (h : taken < i.segments.length) :
    segmentEnd i.encode (i.position taken) = i.position (taken + 1) := by
  obtain ⟨front, hfront, hencode⟩ := exists_split_encode i taken
  have hs := hread.loadable _ (List.getElem_mem h)
  rw [List.drop_eq_getElem_cons h, List.flatMap_cons, List.append_assoc (Segment.encode _)] at hencode
  rw [hencode, ← hfront, segmentEnd_append hs, position_succ h, hfront]

/-- The walk comes to the start of each segment's header and to the end of the data, and nowhere else. -/
theorem reaches_encode_iff {offset : Nat} :
    Reaches i.encode taken offset ↔ taken ≤ i.segments.length ∧ offset = i.position taken := by
  constructor
  · intro h
    induction h with
    | start => exact ⟨Nat.zero_le _, rfl⟩
    | step _ hgoes _ ih =>
      obtain ⟨hle, rfl⟩ := ih
      have hlt := (goesOn_position hread hle).1 hgoes
      exact ⟨hlt, segmentEnd_position hread hlt⟩
  · rintro ⟨hle, rfl⟩
    induction taken with
    | zero => exact .start
    | succ taken ih =>
      have hgoes := (goesOn_position hread (Nat.le_of_succ_le hle)).2 hle
      have hstep := (ih (Nat.le_of_succ_le hle)).step hgoes
      rw [segmentEnd_position hread hle] at hstep
      exact hstep (position_le i (taken + 1))

theorem not_overruns_encode : ¬Overruns i.encode := by
  rintro ⟨taken, offset, hreach, hgoes, hover⟩
  obtain ⟨hle, rfl⟩ := (reaches_encode_iff hread).1 hreach
  have hlt := (goesOn_position hread hle).1 hgoes
  have hbound := position_le i (taken + 1)
  rw [segmentEnd_position hread hlt] at hover
  omega

end Readable

/-! ### Bounds -/

theorem Reaches.le {bytes : Bytes} (hsize : 8 < bytes.length) {taken offset : Nat}
    (h : Reaches bytes taken offset) :
    offset ≤ bytes.length - 1 := by
  cases h with
  | start => omega
  | step _ _ hfits => exact hfits

/-- The walk reads nothing outside the file. -/
theorem Reads.bounds {bytes : Bytes} (hsize : 8 < bytes.length) {start stop : Nat}
    (h : Reads bytes start stop) :
    start ≤ stop ∧ stop ≤ bytes.length := by
  cases h with
  | header _ _ hroom => omega
  | data _ _ hfits =>
    rw [segmentEnd] at hfits ⊢
    omega
  | padding hreach _ =>
    have hle := hreach.le hsize
    omega

end Image

end BootImage
