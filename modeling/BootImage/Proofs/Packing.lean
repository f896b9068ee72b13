import Mathlib
import BootImage.Proofs.Writing

/-!
# What packing does

* (one call) A section that is too long is refused and changes nothing; the longest other one, and one whose
  alignment bytes can no longer be counted, stop the run; an empty section changes nothing; every other
  section is written behind the buffer and counted: `Builder.packInPlace_eq`.
* (a run of calls) After any calls that do not stop, refused ones included, the builder holds the header and
  the non-empty sections that were not refused, in call order, and its tally counts the checksummed ones among
  them.  A run stops only where the single call does: `Builder.calls_eq`, `Builder.holds_of_calls`.
-/

namespace BootImage

/-- The number of alignment bytes that checksummed sections need together. -/
def totalFill (sections : List Section) : Nat := ((sections.filter (·.checksummed)).map (·.fill.length)).sum

theorem totalFill_cons (s : Section) (rest : List Section) :
    totalFill (s :: rest) = (if s.checksummed then s.fill.length else 0) + totalFill rest := by
  cases hc : s.checksummed <;> simp [totalFill, hc]

private theorem totalFill_append (before after : List Section) :
    totalFill (before ++ after) = totalFill before + totalFill after := by
  simp [totalFill]

namespace Builder

/-- A run of calls that each pack a section: the builder after them and the non-empty sections whose call
succeeded, in call order.  A section that is refused does not end the run; an overflow does. -/
def calls (b : Builder) : List Section → Option (Builder × List Section)
  | [] => some (b, [])
  | s :: rest =>
    match packInPlace s b with
    | .ok () next =>
      (next.calls rest).map fun (last, packed) => (last, if s.contents.isEmpty then packed else s :: packed)
    | .error (.oversize _) left => left.calls rest
    | .error .overflow _ => none

def next (b : Builder) (s : Section) : Builder := ⟨b.contents ++ s.added, s.counted b.tally⟩

/-- What a builder holds once these non-empty sections went into it. -/
structure Holds (header : Header) (packed : List Section) (b : Builder) : Prop where
  contents : b.contents = header.encode ++ packed.flatMap Section.written
  /-- Every length that is written fits a word. -/
  sizes : ∀ s ∈ packed, s.paddedSize < 2 ^ 32
  checksum : b.tally.checksum = xorSum 0xEF ((packed.filter (·.checksummed)).flatMap Section.contents)
  padding : b.tally.padding.toNat = totalFill packed

/-! ### One call -/

variable {header : Header} {packed : List Section} {b : Builder}

/-- All that a call can do. -/
theorem packInPlace_eq (b : Builder) (s : Section) :
    packInPlace s b =
      if s.TooLong then .error (.oversize ⟨s.name, s.contents.length⟩) b
      else if s.Longest then .error .overflow b
      else if s.Overfills b.tally then .error .overflow ⟨b.contents ++ s.added, b.tally⟩
      else .ok () (b.next s) := by
  rw [packInPlace, Section.write_eq]
  simp only [true_and]
  split_ifs <;> rfl

theorem pack_eq (b : Builder) (s : Section) :
    b.pack s =
      if s.TooLong then .error (.oversize ⟨s.name, s.contents.length⟩)
      else if s.Longest ∨ s.Overfills b.tally then .error .overflow
      else .ok (b.next s) := by
  rw [pack, packInPlace_eq]
  split_ifs with hlong hlongest hover hstop hstop hstop <;> simp_all

private theorem pack_eq_ok_iff {s : Section} {done : Builder} :
    b.pack s = .ok done ↔ s.Fits ∧ ¬s.Overfills b.tally ∧ done = b.next s := by
  rw [pack_eq, s.fits_iff]
  by_cases hlong : s.TooLong
  · simp [hlong]
  · by_cases hstop : s.Longest ∨ s.Overfills b.tally
    · rw [if_neg hlong, if_pos hstop]
      rcases hstop with h | h <;> simp [h]
    · rw [if_neg hlong, if_neg hstop]
      rw [not_or] at hstop
      simp [hlong, hstop, eq_comm]

/-- The count of alignment bytes is exact. -/
private theorem toNat_padding_next {s : Section} (h : ¬s.Overfills b.tally) :
    (b.next s).tally.padding.toNat = b.tally.padding.toNat + if s.checksummed then s.fill.length else 0 := by
  cases hc : s.checksummed with
  | false => simp [next, Section.counted, hc]
  | true =>
    have hlt : b.tally.padding.toNat + s.fill.length < 2 ^ 32 := Nat.lt_of_not_le fun hle => h ⟨hc, hle⟩
    have hfill : (UInt32.ofNat s.fill.length).toNat = s.fill.length :=
      UInt32.toNat_ofNat_of_lt' (Nat.lt_of_le_of_lt (Nat.le_add_left _ _) hlt)
    rw [next, Section.counted, if_pos hc, UInt32.toNat_add, hfill, Nat.mod_eq_of_lt hlt, if_pos rfl]

/-- One more section keeps the invariant. -/
theorem Holds.next (h : b.Holds header packed) {s : Section} (hfits : s.Fits)
    (hcount : ¬s.Overfills b.tally) :
    Holds header (packed ++ if s.contents.isEmpty then [] else [s]) (b.next s) := by
  by_cases hnil : s.contents = []
  · have hsame : b.next s = b := by
      simp [Builder.next, Section.added, hnil, Section.counted_of_nil hnil]
    simpa [hsame, hnil] using h
  obtain ⟨hcontents, hsizes, hchecksum, hpadding⟩ := h
  simp only [List.isEmpty_iff, hnil, if_false]
  refine ⟨?_, ?_, ?_, ?_⟩
  · simp [Builder.next, Section.added, hnil, hcontents]
  · intro p hp
    rcases List.mem_append.1 hp with hp | hp
    · exact hsizes p hp
    · rw [List.mem_singleton.1 hp]
      exact Section.paddedSize_lt (s.fits_iff.1 hfits).1
  -- only a checksummed section goes into the tally
  · cases hc : s.checksummed <;>
      simp [Builder.next, Section.counted, hc, hchecksum, List.filter_append, xorSum_append]
  · rw [toNat_padding_next hcount, hpadding, totalFill_append, totalFill_cons]
    rfl

/-! ### Packing section after section -/

theorem holds_start (header : Header) : Holds header [] (start header) := by
  refine ⟨?_, ?_, rfl, rfl⟩
  · simp [start]
  · simp

/-- All sections fit, and so does the number of their alignment bytes. -/
theorem packAll_eq_ok_iff {done : Builder} {sections : List Section} :
    b.packAll sections = .ok done ↔
      (∀ s ∈ sections, s.Fits) ∧ b.tally.padding.toNat + totalFill sections < 2 ^ 32 ∧
        done = sections.foldl next b := by
  induction sections generalizing b with
  | nil => simp [packAll, totalFill, pure, Except.pure, eq_comm, b.tally.padding.toNat_lt]
  | cons s rest ih =>
    have hstep : b.packAll (s :: rest) = .ok done ↔
        ∃ next, b.pack s = .ok next ∧ next.packAll rest = .ok done := by
      rw [packAll, List.foldlM_cons]
      cases b.pack s <;> simp [packAll, bind, Except.bind]
    simp only [hstep, pack_eq_ok_iff, ih, List.forall_mem_cons, List.foldl_cons, totalFill_cons]
    constructor
    · rintro ⟨_, ⟨hfits, hcount, rfl⟩, hrest, htotal, hdone⟩
      rw [toNat_padding_next hcount] at htotal
      exact ⟨⟨hfits, hrest⟩, by omega, hdone⟩
    · rintro ⟨⟨hfits, hrest⟩, htotal, hdone⟩
      have hcount : ¬s.Overfills b.tally := by
        rintro ⟨hc, hle⟩
        rw [if_pos hc] at htotal
        omega
      refine ⟨_, ⟨hfits, hcount, rfl⟩, hrest, ?_, hdone⟩
      rw [toNat_padding_next hcount]
      omega

theorem exists_packAll_start_iff (header : Header) (sections : List Section) :
    (∃ b, (start header).packAll sections = .ok b) ↔
      (∀ s ∈ sections, s.Fits) ∧ totalFill sections < 2 ^ 32 := by
  have hzero : (start header).tally.padding.toNat = 0 := rfl
  simp only [packAll_eq_ok_iff, hzero, Nat.zero_add, exists_and_left, exists_eq, and_true]

theorem Holds.packAll (h : b.Holds header packed) {sections : List Section} {done : Builder}
    (hpack : b.packAll sections = .ok done) :
    Holds header (packed ++ sections.filter (!·.contents.isEmpty)) done := by
  induction sections generalizing b packed with
  | nil =>
    obtain ⟨-, -, rfl⟩ := packAll_eq_ok_iff.1 hpack
    simpa using h
  | cons s rest ih =>
    rw [Builder.packAll, List.foldlM_cons] at hpack
    cases hcall : b.pack s with
    | error e =>
      rw [hcall] at hpack
      contradiction
    | ok after =>
      rw [hcall] at hpack
      obtain ⟨hfits, hcount, rfl⟩ := pack_eq_ok_iff.1 hcall
      have hrest := ih (h.next hfits hcount) hpack
      cases hempty : s.contents.isEmpty <;> simpa [hempty] using hrest

/-- If no section is refused, packing stops at an overflow or not at all. -/
theorem eq_overflow_of_packAll {sections : List Section} {e : PackFailure}
    (hshort : ∀ s ∈ sections, ¬s.TooLong) (hpack : b.packAll sections = .error e) : e = .overflow := by
  induction sections generalizing b with
  | nil => contradiction
  | cons s rest ih =>
    rw [List.forall_mem_cons] at hshort
    rw [packAll, List.foldlM_cons, pack_eq, if_neg hshort.1] at hpack
    split at hpack
    · exact (Except.error.inj hpack).symm
    · exact ih hshort.2 hpack

/-! ### A run of calls -/

def admitted (sections : List Section) : List Section := sections.filter fun s => decide ¬s.TooLong

/-- A run of calls does what packing the sections does that are not refused. -/
theorem calls_eq (b : Builder) (sections : List Section) :
    b.calls sections =
      match b.packAll (admitted sections) with
      | .ok last => some (last, (admitted sections).filter (!·.contents.isEmpty))
      | .error _ => none := by
  induction sections generalizing b with
  | nil => rfl
  | cons s rest ih =>
    rw [calls, packInPlace_eq]
    by_cases hlong : s.TooLong
    -- a refused section is left out on both sides
    · rw [if_pos hlong, admitted, List.filter_cons_of_neg (by simpa using hlong)]
      exact ih b
    · have hadmitted : admitted (s :: rest) = s :: admitted rest :=
        List.filter_cons_of_pos (by simpa using hlong)
      rw [if_neg hlong, hadmitted, packAll, List.foldlM_cons, pack_eq, if_neg hlong]
      by_cases hlongest : s.Longest
      · simp [hlongest, bind, Except.bind]
      by_cases hover : s.Overfills b.tally
      · simp [hlongest, hover, bind, Except.bind]
      have hrest := ih (b.next s)
      rw [packAll] at hrest
      simp only [hlongest, hover, or_self, if_false, hrest, bind, Except.bind]
      cases (admitted rest).foldlM pack (b.next s) with
      | error e => rfl
      | ok last => cases hempty : s.contents.isEmpty <;> simp [hempty]

private theorem mem_admitted {sections : List Section} {s : Section} :
    s ∈ admitted sections ↔ s ∈ sections ∧ ¬s.TooLong := by
  simp [admitted]

private theorem calls_start_eq_none_iff (header : Header) (sections : List Section) :
    (start header).calls sections = none ↔
      (∃ s ∈ sections, s.Longest) ∨ 2 ^ 32 ≤ totalFill (admitted sections) := by
  have hok : (∃ done, (start header).packAll (admitted sections) = .ok done) ↔
      (∀ s ∈ sections, ¬s.Longest) ∧ totalFill (admitted sections) < 2 ^ 32 := by
    rw [exists_packAll_start_iff]
    refine and_congr_left fun _ => ⟨?_, ?_⟩
    · intro h s hs hlongest
      exact (s.fits_iff.1 (h s (mem_admitted.2 ⟨hs, hlongest.not_tooLong⟩))).2 hlongest
    · intro h s hs
      obtain ⟨hs, hlong⟩ := mem_admitted.1 hs
      exact s.fits_iff.2 ⟨hlong, h s hs⟩
  have hnone : (start header).calls sections = none ↔
      ¬∃ done, (start header).packAll (admitted sections) = .ok done := by
    rw [calls_eq]
    cases (start header).packAll (admitted sections) <;> simp
  rw [hnone, hok, not_and_or, not_lt]
  simp

private theorem length_complete (b : Builder) : b.complete.contents.length % 16 = 0 := by
  have h := add_tailPadding b.contents.length
  simp only [complete, List.length_append, List.length_replicate, List.length_singleton]
  omega

/-- Whatever calls are made on a new builder, refused ones included: the run stops exactly if a section is the
longest that is not refused, or the number of alignment bytes leaves a word.  Otherwise the builder holds the
header and the non-empty sections whose call succeeded; one more call fails if its section is too long, and
then changes nothing, stops in those two cases, and else adds the section; and to complete the builder is to
fill the last block up with zeros and the checksum. -/
theorem holds_of_calls (header : Header) (sections : List Section) :
    ((start header).calls sections = none ↔
      (∃ s ∈ sections, s.Longest) ∨ 2 ^ 32 ≤ totalFill (sections.filter fun s => decide ¬s.TooLong)) ∧
      ∀ b packed, (start header).calls sections = some (b, packed) →
        Holds header packed b ∧
        (∀ p : Section,
          IsLeast {n | (if p.checksummed then 4 else 16) ∣ n ∧ p.contents.length ≤ n} p.paddedSize) ∧
        (∀ s : Section, packInPlace s b =
          if 2 ^ 32 - (if s.checksummed then 4 else 16) < s.contents.length then
            .error (.oversize ⟨s.name, s.contents.length⟩) b
          else if s.contents.length = 2 ^ 32 - (if s.checksummed then 4 else 16) then .error .overflow b
          else if s.checksummed ∧ 2 ^ 32 ≤ b.tally.padding.toNat + s.fill.length then
            .error .overflow ⟨b.contents ++ s.added, b.tally⟩
          else .ok () ⟨b.contents ++ s.added, s.counted b.tally⟩) ∧
        (∃ zeros, IsLeast {n | (b.contents.length + n) % 16 = 15} zeros ∧
          b.complete = ⟨b.contents ++ List.replicate zeros 0 ++ [b.tally.checksum], b.tally.checksum⟩) ∧
        b.complete.contents.length % 16 = 0 := by
  refine ⟨calls_start_eq_none_iff header sections, ?_⟩
  intro b packed hcalls
  rw [calls_eq] at hcalls
  split at hcalls
  · rename_i last hpack
    obtain ⟨rfl, rfl⟩ := Prod.mk.inj (Option.some.inj hcalls)
    refine ⟨(holds_start header).packAll hpack, Section.isLeast_paddedSize, fun s => ?_, ?_,
      length_complete last⟩
    · rw [packInPlace_eq]
      simp only [Section.TooLong, Section.Longest, Section.Overfills, Section.toNat_alignment]
      rfl
    · exact ⟨tailPadding last.contents.length, isLeast_tailPadding _, rfl⟩
  · contradiction

/-- Two sections and an empty one between them. -/
theorem holds_of_calls_two :
    let text : Section := { name := ".text", loadAddress := 0x1000, contents := [1, 2, 3, 4, 5] }
    let raw : Section := { name := "raw", loadAddress := 0x3000, contents := [6], checksummed := false }
    let b : Builder :=
      { contents := [0xE9, 2, 0, 0, 0, 1, 0, 0, 0, 0x10, 0, 0, 8, 0, 0, 0, 1, 2, 3, 4, 5, 0, 0, 0,
          0, 0x30, 0, 0, 16, 0, 0, 0, 6] ++ List.replicate 15 0
        tally := ⟨0xEE, 3⟩ }
    (start { entry := 0x100 }).calls [text, { text with contents := [] }, raw] = some (b, [text, raw]) ∧
      Holds { entry := 0x100 } [text, raw] b ∧ b.complete.contents.length % 16 = 0 := by
  intro text raw b
  have hcalls : (start { entry := 0x100 }).calls [text, { text with contents := [] }, raw] =
      some (b, [text, raw]) := by
    decide
  obtain ⟨hholds, -, -, -, hlength⟩ := (holds_of_calls { entry := 0x100 } _).2 b [text, raw] hcalls
  exact ⟨hcalls, hholds, hlength⟩

/-- The longest section that is not too long stops the run. -/
theorem calls_longest :
    let raw : Section :=
      { name := "raw", loadAddress := 0, contents := List.replicate (2 ^ 32 - 16) 1, checksummed := false }
    ¬2 ^ 32 - 16 < raw.contents.length ∧
      packInPlace raw (start { entry := 0x100 }) = .error .overflow (start { entry := 0x100 }) ∧
      (start { entry := 0x100 }).calls [raw] = none := by
  intro raw
  have hlongest : raw.Longest := List.length_replicate
  have hcall := packInPlace_eq (start { entry := 0x100 }) raw
  rw [if_neg hlongest.not_tooLong, if_pos hlongest] at hcall
  exact ⟨hlongest.not_tooLong, hcall, by rw [calls, hcall]⟩

end Builder

end BootImage
