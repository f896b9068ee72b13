import BootImage.Proofs.Entries

/-!
# The report on memory usage and its warnings

The report and the warnings are two accounts of the same bounds, and they agree.  Both are read back as lists
of texts, the entries in brackets and the messages, and each entry and each message is found by the text it
starts with.

* (sections) Whether a section is inverted decides its entry and its warning: `Bounds.agrees_of_mem_extents`.
* (memories) Whether sections are inverted, and whether more is used than there is, decides a memory's entries
  and its warning: `Bounds.agrees_of_mem_regions`.
* (numbers) Hence the number of warnings, `Bounds.length_messages`.
-/

namespace BootImage

/-- A section's entry says that it is inverted exactly if it is and exactly if there is a warning about it,
which has the amount; otherwise the entry says how long it is. -/
structure Extent.Agrees (x : Extent) (printed messages : List String) : Prop where
  invalid_iff : Says printed s!"{x.name} " "invalid (end < start)" ↔ x.stop < x.start
  warned_iff : Says messages s!"Section {x.name} "
    s!"ends {x.excess} bytes before it starts; symbol table is inconsistent" ↔ x.stop < x.start
  unwarned : x.start ≤ x.stop → starting s!"Section {x.name} " messages = []
  length : x.start ≤ x.stop → Says printed s!"{x.name} " s!"{x.bytes} bytes"

/-- A memory's entries are unknown exactly if one of its sections is inverted.  Otherwise the counts add up to
its size, and the entry about free bytes speaks of an overflow exactly if more bytes are used than there are
and exactly if there is one warning about it, with the same amount. -/
structure Region.Agrees (r : Region) (printed messages : List String) : Prop where
  used_unknown_iff : Says printed s!"{r.name} used: " "unknown" ↔ ¬r.Valid
  free_unknown_iff : Says printed s!"{r.name} free: " "unknown" ↔ ¬r.Valid
  uncounted : ¬r.Valid → r.used = none ∧ r.free = none
  counts : r.Valid → ∃ used free, r.used = some used ∧ r.free = some free ∧ used = r.demand ∧
    used + free = r.size.toNat
  used : r.Valid → Says printed s!"{r.name} used: " s!"{r.demand} bytes"
  free : r.Valid → r.demand ≤ r.size.toNat →
    Says printed s!"{r.name} free: " s!"{r.size.toNat - r.demand} bytes"
  overflow_iff : (∃ n : Nat, Says printed s!"{r.name} free: " s!"overflow by {n} bytes") ↔
    r.Valid ∧ r.size.toNat < r.demand
  warned_iff : (starting s!"{r.name} overflow: " messages).length = 1 ↔ r.Valid ∧ r.size.toNat < r.demand
  unwarned : ¬(r.Valid ∧ r.size.toNat < r.demand) → starting s!"{r.name} overflow: " messages = []
  overflow : r.Valid → r.size.toNat < r.demand →
    Says printed s!"{r.name} free: " s!"overflow by {r.demand - r.size.toNat} bytes" ∧
    Says messages s!"{r.name} overflow: " s!"{r.demand - r.size.toNat} bytes over {hexSize r.size.toNat}"

open MemoryUsage

/-! ### Sections and memories -/

theorem Bounds.agrees_of_mem_extents (b : Bounds) (sizes : MemorySizes) {x : Extent} (hx : x ∈ b.extents) :
    x.Agrees ((b.items sizes).map Item.text) (ofBounds b sizes).messages := by
  have hitem : x.item ∈ b.items sizes := List.mem_append_left _ (List.mem_map_of_mem hx)
  have hslot : (s!"Section {x.name} ", x.warning?) ∈ b.slots sizes :=
    List.mem_append_left _ (List.mem_map_of_mem hx)
  have hprinted := b.says_items sizes hitem
  have hmessages := b.starting_messages sizes hslot
  dsimp only [Extent.item] at hprinted hmessages
  by_cases h : x.stop < x.start
  · rw [Extent.text_lengthSpan_of_lt h] at hprinted
    rw [Extent.warning?_of_lt h, Option.map_some, MemoryWarning.message_inverted] at hmessages
    exact {
      invalid_iff := iff_of_true hprinted h
      warned_iff := iff_of_true hmessages h
      unwarned := fun hle => absurd h (UInt32.not_lt.2 hle)
      length := fun hle => absurd h (UInt32.not_lt.2 hle) }
  · rw [Extent.text_lengthSpan_of_le (UInt32.not_lt.1 h)] at hprinted
    rw [Extent.warning?_of_le (UInt32.not_lt.1 h)] at hmessages
    refine {
      invalid_iff := iff_of_false (fun hsays => ?_) h
      warned_iff := iff_of_false (fun hsays => ?_) h
      unwarned := fun _ => hmessages
      length := fun _ => hprinted }
    · exact invalid_ne_bytes x.bytes (hprinted.iff_eq.1 hsays).symm
    · rw [Says, hmessages] at hsays
      contradiction

namespace Region

section Agrees

variable {r : Region} {printed messages : List String} (hcounted : r.Counted)
  (hused : Says printed s!"{r.name} used: " (amountSpan r.used).text)
  (hfree : Says printed s!"{r.name} free: " (amountSpan r.free).text)
  (hmessages : starting s!"{r.name} overflow: " messages = (r.warning?.map MemoryWarning.message).toList)
include hcounted hused hfree hmessages

private theorem agrees_of_not_valid (hvalid : ¬r.Valid) : r.Agrees printed messages := by
  obtain ⟨hnone, hnone'⟩ := hcounted.of_not_valid hvalid
  rw [hnone] at hused
  rw [hnone'] at hfree
  have hquiet : starting s!"{r.name} overflow: " messages = [] := by
    rw [hmessages, warning?, hnone']
    rfl
  exact {
    used_unknown_iff := iff_of_true hused hvalid
    free_unknown_iff := iff_of_true hfree hvalid
    uncounted := fun _ => ⟨hnone, hnone'⟩
    counts := fun h => absurd h hvalid
    used := fun h => absurd h hvalid
    free := fun h => absurd h hvalid
    overflow_iff :=
      iff_of_false (not_exists.2 fun _ h => overflow_ne (by decide) (hfree.iff_eq.1 h).symm)
        fun h => hvalid h.1
    warned_iff := iff_of_false (by rw [hquiet]; decide) fun h => hvalid h.1
    unwarned := fun _ => hquiet
    overflow := fun h => absurd h hvalid }

private theorem agrees_of_le (hvalid : r.Valid) (hle : r.demand ≤ r.size.toNat) :
    r.Agrees printed messages := by
  obtain ⟨hsome, hsome'⟩ := hcounted.of_valid hvalid
  have hleft : (r.size.toNat - r.demand : Int) = (r.size.toNat - r.demand : Nat) := (Nat.cast_sub hle).symm
  have hfits : ¬(r.Valid ∧ r.size.toNat < r.demand) := fun h => Nat.not_lt.2 hle h.2
  have hquiet : starting s!"{r.name} overflow: " messages = [] := by
    rw [hmessages, warning?, hsome', hleft]
    dsimp only
    rw [if_neg (Int.natCast_nonneg _).not_gt]
    rfl
  rw [hsome, text_amountSpan_natCast] at hused
  rw [hsome', hleft, text_amountSpan_natCast] at hfree
  exact {
    used_unknown_iff :=
      iff_of_false (fun h => unknown_ne_bytes _ (hused.iff_eq.1 h).symm) (not_not_intro hvalid)
    free_unknown_iff :=
      iff_of_false (fun h => unknown_ne_bytes _ (hfree.iff_eq.1 h).symm) (not_not_intro hvalid)
    uncounted := fun h => absurd hvalid h
    counts := fun _ => ⟨_, _, hsome, hsome', rfl, by omega⟩
    used := fun _ => hused
    free := fun _ _ => hfree
    overflow_iff :=
      iff_of_false (not_exists.2 fun _ h => overflow_ne (v_not_mem_bytes _) (hfree.iff_eq.1 h).symm) hfits
    warned_iff := iff_of_false (by rw [hquiet]; decide) hfits
    unwarned := fun _ => hquiet
    overflow := fun _ h => absurd ⟨hvalid, h⟩ hfits }

private theorem agrees_of_lt (hvalid : r.Valid) (hlt : r.size.toNat < r.demand) :
    r.Agrees printed messages := by
  obtain ⟨hsome, hsome'⟩ := hcounted.of_valid hvalid
  have hneg : (r.size.toNat - r.demand : Int) < 0 := by omega
  have hamount : (r.size.toNat - r.demand : Int).natAbs = r.demand - r.size.toNat := by omega
  have hloud : Says messages s!"{r.name} overflow: "
      s!"{r.demand - r.size.toNat} bytes over {hexSize r.size.toNat}" := by
    rw [Says, hmessages, warning?, hsome']
    dsimp only
    rw [if_pos hneg, hamount, Option.map_some, MemoryWarning.message_overflow]
    rfl
  rw [hsome, text_amountSpan_natCast] at hused
  rw [hsome', text_amountSpan_of_neg hneg, hamount] at hfree
  exact {
    used_unknown_iff :=
      iff_of_false (fun h => unknown_ne_bytes _ (hused.iff_eq.1 h).symm) (not_not_intro hvalid)
    free_unknown_iff :=
      iff_of_false (fun h => overflow_ne (by decide) (hfree.iff_eq.1 h)) (not_not_intro hvalid)
    uncounted := fun h => absurd hvalid h
    counts := fun _ => ⟨_, _, hsome, hsome', rfl, by omega⟩
    used := fun _ => hused
    free := fun _ h => absurd hlt (Nat.not_lt.2 h)
    overflow_iff := iff_of_true ⟨_, hfree⟩ ⟨hvalid, hlt⟩
    warned_iff := iff_of_true (by rw [hloud]; rfl) ⟨hvalid, hlt⟩
    unwarned := fun h => absurd ⟨hvalid, hlt⟩ h
    overflow := fun _ _ => ⟨hfree, hloud⟩ }

end Agrees

end Region

namespace Bounds

variable (b : Bounds) (sizes : MemorySizes)

theorem agrees_of_mem_regions {r : Region} (hr : r ∈ b.regions sizes) :
    r.Agrees ((b.items sizes).map Item.text) (ofBounds b sizes).messages := by
  have hslot : (s!"{r.name} overflow: ", r.warning?) ∈ b.slots sizes :=
    List.mem_append_right _ (List.mem_map_of_mem hr)
  have hitems {i : Item} (hi : i ∈ r.items) : i ∈ b.items sizes :=
    (b.mem_items_iff sizes).2 (.inr ⟨r, hr, hi⟩)
  have hused := b.says_items sizes (hitems List.mem_cons_self)
  have hfree := b.says_items sizes (hitems (List.mem_cons_of_mem _ List.mem_cons_self))
  have hmessages := b.starting_messages sizes hslot
  have hcounted := b.counted_of_mem_regions sizes hr
  dsimp only at hused hfree hmessages
  by_cases hvalid : r.Valid
  · rcases Nat.lt_or_ge r.size.toNat r.demand with h | h
    · exact Region.agrees_of_lt hcounted hused hfree hmessages hvalid h
    · exact Region.agrees_of_le hcounted hused hfree hmessages hvalid h
  · exact Region.agrees_of_not_valid hcounted hused hfree hmessages hvalid

/-! ### Numbers of warnings -/

private theorem mentions_invalid_section {x : Extent} (hx : x ∈ b.extents) :
    mentions "invalid" x.item.text = x.warning?.isSome := by
  by_cases h : x.stop < x.start
  · rw [Extent.warning?_of_lt h, Item.text, Extent.item, Extent.text_lengthSpan_of_lt h]
    exact mentions_append_middle _ "invalid" " (end < start)"
  · rw [Extent.warning?_of_le (UInt32.not_lt.1 h), Option.isSome_none, Item.text, Extent.item,
      Extent.text_lengthSpan_of_le (UInt32.not_lt.1 h)]
    exact mentions_eq_false (by decide : 'v' ∈ _)
      (not_mem_append (not_mem_section_label (by decide) hx) (v_not_mem_bytes _))

private theorem mentions_overflow_section {x : Extent} (hx : x ∈ b.extents) :
    mentions "overflow by" x.item.text = false :=
  mentions_eq_false (by decide : 'w' ∈ _)
    (not_mem_section_text (fun _ => Nat.digitChar_ne 'w' (by decide)) (by decide) hx)

variable {b sizes} {r : Region} (hr : r ∈ b.regions sizes)
include hr

private theorem mentions_invalid_memory {i : Item} (hi : i ∈ r.items) : mentions "invalid" i.text = false :=
  mentions_eq_false (by decide : 'i' ∈ _)
    (not_mem_memory_text (fun _ => Nat.digitChar_ne 'i' (by decide)) (by decide) hr hi)

private theorem mentions_overflow_memory {label : String} {amount : Option Int}
    (hi : ⟨label, amountSpan amount⟩ ∈ r.items) :
    mentions "overflow by" (label ++ (amountSpan amount).text) = amount.any (· < 0) := by
  have hlabel : 'v' ∉ label.toList := not_mem_memory_label (by decide) hr hi
  cases amount with
  | none =>
    have hunknown : 'v' ∉ "unknown".toList := by decide
    exact mentions_eq_false (by decide : 'v' ∈ _) (not_mem_append hlabel hunknown)
  | some n =>
    rw [Option.any_some]
    by_cases hn : n < 0
    · have hsplit : s!"overflow by {n.natAbs} bytes" = "overflow by" ++ s!" {n.natAbs} bytes" := by
        simp only [← String.append_assoc]
        rfl
      rw [text_amountSpan_of_neg hn, decide_eq_true hn, hsplit]
      exact mentions_append_middle label "overflow by" s!" {n.natAbs} bytes"
    · obtain ⟨m, rfl⟩ := Int.eq_ofNat_of_zero_le (Int.not_lt.1 hn)
      rw [text_amountSpan_natCast, decide_eq_false hn]
      exact mentions_eq_false (by decide : 'v' ∈ _) (not_mem_append hlabel (v_not_mem_bytes m))

private theorem countP_overflow_items :
    r.items.countP (mentions "overflow by" ·.text) = [r].countP (·.warning?.isSome) := by
  -- no more than the free bytes can be negative, and they are exactly if there is a warning
  have hused : r.used.any (· < 0) = false := by
    have hcounted := counted_of_mem_regions b sizes hr
    by_cases hvalid : r.Valid
    · rw [(hcounted.of_valid hvalid).1, Option.any_some]
      exact decide_eq_false (Int.natCast_nonneg _).not_gt
    · rw [(hcounted.of_not_valid hvalid).1, Option.any_none]
  have hfree : r.free.any (· < 0) = r.warning?.isSome := by
    rw [Region.warning?]
    cases r.free with
    | none => rfl
    | some n => by_cases hn : n < 0 <;> simp [hn]
  have hfirst := mentions_overflow_memory hr (List.mem_cons_self : _ ∈ r.items)
  have hsecond := mentions_overflow_memory hr (List.mem_cons_of_mem _ List.mem_cons_self : _ ∈ r.items)
  simp only [Region.items, Item.text, List.countP_cons, List.countP_nil, hfirst, hsecond, hused, hfree]
  simp

omit hr

variable (b sizes)

/-- There are as many warnings as entries that speak of an inverted section or of an overflow. -/
theorem length_messages : (ofBounds b sizes).messages.length =
    ((b.items sizes).map Item.text).countP (mentions "invalid") +
      ((b.items sizes).map Item.text).countP (mentions "overflow by") := by
  have hiram : b.iram sizes ∈ b.regions sizes := List.mem_cons_self
  have hsram : b.sram sizes ∈ b.regions sizes := List.mem_cons_of_mem _ List.mem_cons_self
  have hsections : b.extents.countP (mentions "invalid" ·.item.text) = b.extents.countP (·.warning?.isSome) :=
    List.countP_congr fun x hx => by rw [mentions_invalid_section b hx]
  have hsections' : b.extents.countP (mentions "overflow by" ·.item.text) = 0 :=
    List.countP_eq_zero.2 fun x hx => by simp [mentions_overflow_section b hx]
  have hmemory {r : Region} (hr : r ∈ b.regions sizes) : r.items.countP (mentions "invalid" ·.text) = 0 :=
    List.countP_eq_zero.2 fun i hi => by simp [mentions_invalid_memory hr hi]
  have hregions : (b.regions sizes).countP (·.warning?.isSome) =
      [b.iram sizes].countP (·.warning?.isSome) + [b.sram sizes].countP (·.warning?.isSome) := by
    rw [← List.countP_append]
    rfl
  have hsplit (p : String → Bool) : ((b.items sizes).map Item.text).countP p =
    b.extents.countP (p ·.item.text) +
      ((b.sram sizes).items.countP (p ·.text) + (b.iram sizes).items.countP (p ·.text)) := by
    rw [List.countP_map, items, List.countP_append, List.countP_append, List.countP_map]
    rfl
  rw [messages, List.length_map, warnings_eq, List.length_append, List.length_filterMap_eq_countP,
    List.length_filterMap_eq_countP, hregions, hsplit, hsplit, hsections, hsections', hmemory hiram,
    hmemory hsram, countP_overflow_items hiram, countP_overflow_items hsram]
  omega

end Bounds

/-- For all bounds and sizes, in colour or not, the report and the warnings agree about every section and
every memory.  There are as many warnings as entries about inverted sections and overflows, neither the report
nor a warning has a negative number, and signed words of 64 bits suffice to compute both. -/
theorem MemoryUsage.styled_agrees (b : Bounds) (sizes : MemorySizes) (coloured : Bool) :
    let u := ofBounds b sizes
    let text := dropRenditions (u.styled.render coloured).toList
    let printed := brackets text
    (∀ x ∈ b.extents, x.Agrees printed u.messages) ∧
      (∀ r ∈ b.regions sizes, r.Agrees printed u.messages) ∧
      u.messages.length = printed.countP (mentions "invalid") + printed.countP (mentions "overflow by") ∧
      NoNegative text ∧ (∀ message ∈ u.messages, NoNegative message.toList) ∧
      ∀ n ∈ u.signedResults, -2 ^ 63 ≤ n ∧ n < 2 ^ 63 := by
  intro u text printed
  have htext : text = (u.styled.render false).toList := u.escapeFree_styled.dropRenditions_render coloured
  have hprinted : printed = (b.items sizes).map Item.text := by
    rw [← b.brackets_styled sizes, ← htext]
  rw [hprinted, htext]
  exact ⟨fun x hx => b.agrees_of_mem_extents sizes hx, fun r hr => b.agrees_of_mem_regions sizes hr,
    b.length_messages sizes, b.noNegative_styled sizes, fun _ h => b.noNegative_messages sizes h,
    b.signedResults_bounds sizes⟩

/-- A section that ends at zero makes the counts of its memory unknown, and the code is 52 bytes too long. -/
theorem MemoryUsage.styled_agrees_overflow :
    let b : Bounds := { textEnd := 0x234, rodataStart := 0x8000, rodataEnd := 0x8040, bssStart := 0x8040 }
    let u := ofBounds b { iram := 0x200 }
    let printed := brackets (dropRenditions (u.styled.render true).toList)
    Says printed ".bss " "invalid (end < start)" ∧ Says printed "SRAM free: " "unknown" ∧
      Says printed "IRAM free: " "overflow by 52 bytes" ∧
      Says u.messages "IRAM overflow: " "52 bytes over 0x200" ∧
      printed.countP (mentions "invalid") + printed.countP (mentions "overflow by") = 2 := by
  intro b u printed
  obtain ⟨hextents, hregions, hlength, -⟩ := styled_agrees b { iram := 0x200 } true
  have hbss := hextents b.bss (by simp [Bounds.extents])
  have hiram := hregions (b.iram { iram := 0x200 }) (by simp [Bounds.regions])
  have hsram := hregions (b.sram { iram := 0x200 }) (by simp [Bounds.regions])
  have hinverted : b.bss.stop < b.bss.start := by decide
  have hunknown : ¬(b.sram { iram := 0x200 }).Valid := fun h =>
    UInt32.not_lt.2 (h b.bss (List.mem_cons_of_mem _ List.mem_cons_self)) hinverted
  have hvalid : (b.iram { iram := 0x200 }).Valid := List.forall_mem_singleton.2 (by decide)
  have hwarnings : u.messages.length = 2 := by decide
  obtain ⟨hoverflow, hwarning⟩ := hiram.overflow hvalid (by decide)
  have hbytes : (b.iram { iram := 0x200 }).demand - (b.iram { iram := 0x200 }).size.toNat = 52 := by decide
  have hnumber : toString 52 = "52" := by decide
  have hsize : toString (hexSize (b.iram { iram := 0x200 }).size.toNat) = "0x200" := by decide
  rw [hbytes, hnumber] at hoverflow hwarning
  rw [hsize] at hwarning
  exact ⟨hbss.invalid_iff.2 hinverted, hsram.free_unknown_iff.2 hunknown, hoverflow, hwarning,
    hlength.symm.trans hwarnings⟩

end BootImage
