import Mathlib
import BootImage.Image.Decode

/-!
# The boot loader's walk

* (segments) Written segments are taken off one by one, so the walk goes on behind them: `Image.walk_append`.
* (exactness) The walk gives segments and padding exactly when these make up the bytes, every segment can be
  loaded, and the walk has a reason to stop at the padding: `Image.walk_eq_ok_iff`; and a file decodes to an
  image exactly when it is the encoding of the image and the image is readable in this sense:
  `Image.decode_eq_ok_iff`.
* (offsets) The data of each segment stand at the offset that is reported for them: `Image.slice_placements`.
-/

namespace BootImage

/-- The boot loader can take the segment: it is not empty, and its length fits a word. -/
def Segment.Loadable (s : Segment) : Prop := s.data ≠ [] ∧ s.data.length < 2 ^ 32

instance (s : Segment) : Decidable s.Loadable := inferInstanceAs (Decidable (_ ∧ _))

namespace Image

/-- The boot loader takes no segment off the bytes: it may not take more, no segment header fits, or the
length in the segment header is zero. -/
def Stops (more : Nat) (rest : Bytes) : Prop :=
  more = 0 ∨ ∀ h body, SegmentHeader.decode? rest = some (h, body) → h.length = 0

structure Allowed (h : Header) (segments : List Segment) : Prop where
  magic : h.magic = imageMagic
  count : segments.length ≤ h.format.toNat
  loadable : ∀ s ∈ segments, s.Loadable

structure Readable (i : Image) : Prop extends Allowed i.header i.segments where
  stops : Stops (i.header.format.toNat - i.segments.length) i.padding

/-! ### Segment headers -/

theorem toNat_length_header {s : Segment} (h : s.Loadable) : s.header.length.toNat = s.data.length :=
  UInt32.toNat_ofNat_of_lt' h.2

theorem decode?_segment (s : Segment) (rest : Bytes) :
    SegmentHeader.decode? (s.encode ++ rest) = some (s.header, s.data ++ rest) := by
  rw [Segment.encode, List.append_assoc, SegmentHeader.decode?_encode]

/-- The zeros behind the last segment stop the walk, however many there are. -/
theorem stops_zeros (more n : Nat) : Stops more (List.replicate n 0) := by
  right
  intro h body e
  unfold SegmentHeader.decode? at e
  split at e
  · rename_i rest hzeros
    have hz : ∀ b ∈ List.replicate n (0 : UInt8), b = 0 := fun b hb => List.eq_of_mem_replicate hb
    rw [hzeros] at hz
    simp only [Option.some.injEq, Prod.mk.injEq] at e
    obtain ⟨rfl, -⟩ := e
    simp only [List.mem_cons, forall_eq_or_imp] at hz
    obtain ⟨-, -, -, -, rfl, rfl, rfl, rfl, -⟩ := hz
    rfl
  · contradiction

/-- The zeros of a block's end are no segment: the length in their place is zero. -/
theorem encode_append_ne_zeros_append {s : Segment} (h : s.Loadable) {n : Nat} (hn : 8 ≤ n)
    (rest behind : Bytes) :
    s.encode ++ rest ≠ List.replicate n 0 ++ behind := by
  intro hzeros
  obtain ⟨m, rfl⟩ := Nat.exists_eq_add_of_le hn
  have hdecode := congrArg SegmentHeader.decode? hzeros
  rw [decode?_segment, List.replicate_add, List.append_assoc] at hdecode
  have hheader : s.header = ⟨0, 0⟩ := congrArg Prod.fst (Option.some.inj hdecode)
  have hlength := toNat_length_header h
  rw [hheader, UInt32.toNat_zero] at hlength
  exact h.1 (List.length_eq_zero_iff.1 hlength.symm)

/-! ### The walk -/

theorem walk_of_stops {more : Nat} {rest : Bytes} (h : Stops more rest) (limit index : Nat) :
    walk limit index more rest = .ok ([], rest) := by
  cases more with
  | zero => rfl
  | succ more =>
    rcases h with h | h
    · contradiction
    · rw [walk]
      split
      · rfl
      · rename_i sub body e
        rw [if_pos (h sub body e)]

theorem walk_cons {s : Segment} (h : s.Loadable) (limit index more : Nat) (rest : Bytes) :
    walk limit index (more + 1) (s.encode ++ rest) =
      (walk limit (index + 1) more rest).map fun (segments, padding) => (s :: segments, padding) := by
  have hlength := toNat_length_header h
  have hpos : 0 < s.data.length := List.length_pos_iff.2 h.1
  have hne : s.header.length ≠ 0 := by
    intro hz
    rw [hz] at hlength
    simp at hlength
    omega
  rw [walk, decode?_segment]
  simp only [hne, if_false, hlength, List.length_append, Nat.le_add_right, if_true, List.take_left,
    List.drop_left]
  rfl

/-- The walk goes on behind segments that it may take. -/
theorem walk_append {segments : List Segment} (h : ∀ s ∈ segments, s.Loadable) (limit index more : Nat)
    (rest : Bytes) :
    walk limit index (segments.length + more) (segments.flatMap Segment.encode ++ rest) =
      (walk limit (index + segments.length) more rest).map fun (found, padding) =>
        (segments ++ found, padding) := by
  induction segments generalizing index with
  | nil =>
    simp only [List.length_nil, Nat.zero_add, List.flatMap_nil, List.nil_append, Nat.add_zero]
    cases walk limit index more rest <;> rfl
  | cons s tail ih =>
    have htail : ∀ t ∈ tail, t.Loadable := fun t ht => h t (List.mem_cons_of_mem s ht)
    rw [List.length_cons, Nat.add_right_comm, List.flatMap_cons, List.append_assoc,
      walk_cons (h s List.mem_cons_self), ih htail, Nat.add_assoc, Nat.add_comm 1]
    cases walk limit (index + (tail.length + 1)) more rest <;> rfl

theorem exists_of_not_stops {more : Nat} {rest : Bytes} (h : ¬Stops more rest) :
    ∃ sub body, SegmentHeader.decode? rest = some (sub, body) ∧ sub.length ≠ 0 := by
  simp only [Stops, not_or, not_forall] at h
  obtain ⟨-, sub, body, e, hne⟩ := h
  exact ⟨sub, body, e, hne⟩

/-- A segment whose data fit behind its header is loadable, and stands in front of what is behind it. -/
theorem segment_of_decode? {rest body : Bytes} {sub : SegmentHeader}
    (e : SegmentHeader.decode? rest = some (sub, body)) (hne : sub.length ≠ 0)
    (hfits : sub.length.toNat ≤ body.length) :
    Segment.Loadable ⟨sub.loadAddress, body.take sub.length.toNat⟩ ∧
      rest = Segment.encode ⟨sub.loadAddress, body.take sub.length.toNat⟩ ++ body.drop sub.length.toNat := by
  have hlength : (body.take sub.length.toNat).length = sub.length.toNat := by
    rw [List.length_take, Nat.min_eq_left hfits]
  refine ⟨⟨?_, ?_⟩, ?_⟩
  · rw [ne_eq, ← List.length_eq_zero_iff, hlength, ← UInt32.toNat_zero, UInt32.toNat_inj]
    exact hne
  · show (body.take sub.length.toNat).length < 2 ^ 32
    rw [hlength]
    exact sub.length.toNat_lt
  · rw [SegmentHeader.eq_encode_of_decode? e, Segment.encode, Segment.header, hlength, UInt32.ofNat_toNat,
      List.append_assoc, List.take_append_drop]

/-- All that one step of a successful walk can do. -/
private theorem walk_succ_cases {limit index more : Nat} {rest padding : Bytes} {segments : List Segment}
    (h : walk limit index (more + 1) rest = .ok (segments, padding)) :
    (Stops (more + 1) rest ∧ segments = [] ∧ padding = rest) ∨
      ∃ s tail behind, s.Loadable ∧ rest = s.encode ++ behind ∧ segments = s :: tail ∧
        walk limit (index + 1) more behind = .ok (tail, padding) := by
  by_cases hstop : Stops (more + 1) rest
  · left
    rw [walk_of_stops hstop, Except.ok.injEq, Prod.mk.injEq] at h
    exact ⟨hstop, h.1.symm, h.2.symm⟩
  · right
    obtain ⟨sub, body, e, hne⟩ := exists_of_not_stops hstop
    simp only [walk, e, hne, if_false] at h
    split at h
    · rename_i hfits
      cases r : walk limit (index + 1) more (body.drop sub.length.toNat) with
      | error =>
        rw [r] at h
        contradiction
      | ok found =>
        rw [r, Except.map, Except.ok.injEq, Prod.mk.injEq] at h
        obtain ⟨hloadable, hrest⟩ := segment_of_decode? e hne hfits
        refine ⟨_, found.1, _, hloadable, hrest, h.1.symm, ?_⟩
        rw [r, ← h.2]
    · contradiction

private theorem walk_sound {limit index more : Nat} {rest padding : Bytes} {segments : List Segment}
    (h : walk limit index more rest = .ok (segments, padding)) :
    rest = segments.flatMap Segment.encode ++ padding ∧ segments.length ≤ more ∧
      (∀ s ∈ segments, s.Loadable) ∧
      Stops (more - segments.length) padding := by
  induction more generalizing index rest segments with
  | zero =>
    simp only [walk, Except.ok.injEq, Prod.mk.injEq] at h
    obtain ⟨rfl, rfl⟩ := h
    exact ⟨rfl, Nat.le_refl 0, by simp, Or.inl rfl⟩
  | succ more ih =>
    rcases walk_succ_cases h with ⟨hstop, rfl, rfl⟩ | ⟨s, tail, behind, hs, rfl, rfl, hwalk⟩
    · exact ⟨rfl, Nat.zero_le _, by simp, hstop⟩
    · obtain ⟨hrest, hcount, hloadable, hstops⟩ := ih hwalk
      refine ⟨?_, ?_, ?_, ?_⟩
      · rw [List.flatMap_cons, List.append_assoc, ← hrest]
      · rw [List.length_cons]
        omega
      · exact List.forall_mem_cons.2 ⟨hs, hloadable⟩
      · rw [List.length_cons, Nat.add_sub_add_right]
        exact hstops

theorem walk_eq_ok_iff {limit index more : Nat} {rest padding : Bytes} {segments : List Segment} :
    walk limit index more rest = .ok (segments, padding) ↔
      rest = segments.flatMap Segment.encode ++ padding ∧ segments.length ≤ more ∧
        (∀ s ∈ segments, s.Loadable) ∧
        Stops (more - segments.length) padding := by
  constructor
  · exact walk_sound
  · rintro ⟨rfl, hcount, hloadable, hstops⟩
    conv => lhs; rw [← Nat.add_sub_cancel' hcount]
    rw [walk_append hloadable, walk_of_stops hstops]
    simp [Except.map]

/-! ### Files -/

/-- A file behind whose header stands `rest` and the checksum byte. -/
theorem decode_append (h : Header) (rest : Bytes) (checksum : UInt8) :
    decode (h.encode ++ rest ++ [checksum]) =
      if h.magic = imageMagic then
        (walk (h.encode ++ rest).length 0 h.format.toNat rest).map fun (segments, padding) =>
          ⟨h, segments, padding, checksum⟩
      else .error (.badMagic h.magic) := by
  have hlast : (rest ++ [checksum]).getLast? = some checksum := List.getLast?_concat
  have hlength : (h.encode ++ (rest ++ [checksum])).length - 1 = (h.encode ++ rest).length := by
    simp only [List.length_append, List.length_singleton]
    omega
  rw [List.append_assoc, decode, Header.decode?_encode]
  simp only [hlast, List.dropLast_concat, hlength]

/-- The walk goes on in the padding, and may read more segments there. -/
private theorem decode_encode {i : Image} (h : Allowed i.header i.segments) :
    decode i.encode =
      (walk (i.size - 1) i.segments.length (i.header.format.toNat - i.segments.length) i.padding).map
        fun (found, padding) => ⟨i.header, i.segments ++ found, padding, i.checksum⟩ := by
  have hformat : i.header.format.toNat = i.segments.length + (i.header.format.toNat - i.segments.length) :=
    (Nat.add_sub_of_le h.count).symm
  have hsize : (i.header.encode ++ (i.segments.flatMap Segment.encode ++ i.padding)).length = i.size - 1 := by
    rw [size, dataEnd, List.length_append, List.length_append, length_flatMap_encode, Header.length_encode]
    omega
  rw [encode, List.append_assoc i.header.encode, decode_append, if_pos h.magic, hsize]
  -- the format byte also stands on the right, where it is not split up
  conv => lhs; rw [hformat]
  rw [walk_append h.loadable, Nat.zero_add]
  cases walk (i.size - 1) i.segments.length (i.header.format.toNat - i.segments.length) i.padding <;> rfl

/-- What is read from the file of an image starts with the image's own segments; more may have been read from
its padding. -/
theorem exists_of_decode_encode {header : Header} {segments : List Segment} {behind : Bytes}
    {checksum : UInt8} {j : Image} (h : Allowed header segments)
    (hdecode : decode (encode ⟨header, segments, behind, checksum⟩) = .ok j) :
    ∃ found padding, j = ⟨header, segments ++ found, padding, checksum⟩ ∧
      behind = found.flatMap Segment.encode ++ padding ∧
      segments.length + found.length ≤ header.format.toNat ∧ ∀ s ∈ found, s.Loadable := by
  rw [decode_encode (i := ⟨header, segments, behind, checksum⟩) h] at hdecode
  cases hwalk : walk _ segments.length (header.format.toNat - segments.length) behind with
  | error =>
    rw [hwalk] at hdecode
    contradiction
  | ok read =>
    rw [hwalk, Except.map, Except.ok.injEq] at hdecode
    obtain ⟨hbehind, hcount, hloadable, -⟩ := walk_eq_ok_iff.1 hwalk
    have hallowed := h.count
    exact ⟨read.1, read.2, hdecode.symm, hbehind, by omega, hloadable⟩

/-- A file that is not too small is a header, what stands behind it, and the checksum byte. -/
private theorem decode_eq_or (bytes : Bytes) :
    decode bytes = .error (.tooSmall bytes.length) ∨
      ∃ h rest checksum, bytes = Header.encode h ++ rest ++ [checksum] := by
  rw [decode]
  split
  · left
    rfl
  · rename_i h behind e
    split
    · left
      rfl
    · rename_i checksum hlast
      right
      obtain ⟨rest, rfl⟩ := List.getLast?_eq_some_iff.1 hlast
      exact ⟨h, rest, checksum, by rw [Header.eq_encode_of_decode? e, List.append_assoc]⟩

/-- A file decodes to an image exactly when it is the encoding of it and the image is readable. -/
theorem decode_eq_ok_iff {bytes : Bytes} {i : Image} :
    decode bytes = .ok i ↔ i.encode = bytes ∧ i.Readable := by
  constructor
  · intro h
    rcases decode_eq_or bytes with hsmall | ⟨header, rest, checksum, rfl⟩
    · rw [hsmall] at h
      contradiction
    · rw [decode_append] at h
      split at h
      · rename_i hmagic
        cases r : walk (header.encode ++ rest).length 0 header.format.toNat rest with
        | error => rw [r] at h; contradiction
        | ok found =>
          obtain ⟨segments, padding⟩ := found
          rw [r] at h
          cases h
          obtain ⟨hrest, hcount, hloadable, hstops⟩ := walk_eq_ok_iff.1 r
          exact ⟨by rw [hrest, encode, List.append_assoc header.encode], ⟨hmagic, hcount, hloadable⟩, hstops⟩
      · contradiction
  · rintro ⟨rfl, h⟩
    rw [decode_encode h.toAllowed, walk_of_stops h.stops]
    simp [Except.map]

/-! ### Offsets -/

private theorem slice_placeFrom (before after : Bytes) (segments : List Segment) :
    ∀ p ∈ placeFrom before.length segments,
      ((before ++ segments.flatMap Segment.encode ++ after).drop p.1).take p.2.data.length = p.2.data := by
  induction segments generalizing before with
  | nil => simp [placeFrom]
  | cons s rest ih =>
    intro p hp
    rw [placeFrom, List.mem_cons] at hp
    rcases hp with rfl | hp
    · have hsplit : before ++ (s :: rest).flatMap Segment.encode ++ after =
          (before ++ s.header.encode) ++ (s.data ++ (rest.flatMap Segment.encode ++ after)) := by
        simp [Segment.encode]
      have hlength : before.length + SegmentHeader.size = (before ++ s.header.encode).length := by
        rw [List.length_append, SegmentHeader.length_encode]
      rw [hsplit, hlength, List.drop_left, List.take_left]
    · have hsplit : before ++ (s :: rest).flatMap Segment.encode ++ after =
          (before ++ s.encode) ++ rest.flatMap Segment.encode ++ after := by
        simp
      have hlength : before.length + s.extent = (before ++ s.encode).length := by
        rw [List.length_append, Segment.length_encode]
      rw [hlength] at hp
      rw [hsplit]
      exact ih (before ++ s.encode) p hp

/-- The data of every segment stand at the offset that is reported for them. -/
theorem slice_placements (i : Image) :
    ∀ p ∈ i.placements, (i.encode.drop p.1).take p.2.data.length = p.2.data := by
  have h := slice_placeFrom i.header.encode (i.padding ++ [i.checksum]) i.segments
  rw [Header.length_encode] at h
  simpa only [encode, placements, List.append_assoc] using h

@[simp] theorem map_snd_placements (i : Image) : i.placements.map Prod.snd = i.segments := by
  have h (offset : Nat) (segments : List Segment) : (placeFrom offset segments).map Prod.snd = segments := by
    induction segments generalizing offset with
    | nil => rfl
    | cons s rest ih => rw [placeFrom, List.map_cons, ih]
  exact h Header.size i.segments

end Image

end BootImage
