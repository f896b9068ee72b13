import BootImage.Proofs.Presentation
import BootImage.Proofs.Regions
import BootImage.Proofs.Texts

/-!
# What the report and the warnings say

* (entries) No entry of the report has a bracket of its own, so the text is read back as the entries it was
  made of: `Bounds.brackets_styled`.  An entry is found by its label: `Bounds.says_items`.
* (warnings) A warning is found by how its message starts: `Bounds.starting_messages`.
* (numbers) None of them has a negative number: `Bounds.noNegative_styled`, `Bounds.noNegative_messages`.
-/

namespace BootImage

/-! ### Entries -/

structure Item where
  label : String
  amount : Span

def Item.text (i : Item) : String := i.label ++ i.amount.text

def Extent.item (x : Extent) : Item := ⟨s!"{x.name} ", MemoryUsage.lengthSpan x.length⟩

def Region.items (r : Region) : List Item :=
  [⟨s!"{r.name} used: ", MemoryUsage.amountSpan r.used⟩, ⟨s!"{r.name} free: ", MemoryUsage.amountSpan r.free⟩]

def bracketed (items : List Item) : List Char := items.flatMap fun i => '[' :: (i.text.toList ++ [']'])

private theorem brackets_bracketed {items : List Item}
    (h : ∀ i ∈ items, '[' ∉ i.text.toList ∧ ']' ∉ i.text.toList) (rest : List Char) :
    brackets (bracketed items ++ rest) = items.map Item.text ++ brackets rest := by
  induction items with
  | nil => rfl
  | cons i items ih =>
    obtain ⟨⟨hopen, hclose⟩, h⟩ := List.forall_mem_cons.1 h
    have hsplit : bracketed (i :: items) ++ rest =
        '[' :: (i.text.toList ++ ']' :: (bracketed items ++ rest)) := by
      simp [bracketed]
    rw [hsplit, brackets_entry hopen hclose, ih h, List.map_cons, List.cons_append]

private theorem not_mem_bracketed {c : Char} (hopen : c ≠ '[') (hclose : c ≠ ']') {items : List Item}
    (h : ∀ i ∈ items, c ∉ i.text.toList) : c ∉ bracketed items := by
  rw [bracketed, List.mem_flatMap]
  rintro ⟨i, hi, hc⟩
  rw [List.mem_cons, List.mem_append, List.mem_singleton] at hc
  rcases hc with hc | hc | hc
  · exact hopen hc
  · exact h i hi hc
  · exact hclose hc

private theorem Styled.render_false (t : Styled) : t.render false = String.join (t.map Span.text) := by
  have hplain (s : Span) : s.render false = s.text := by cases hc : s.colour <;> simp [Span.render, hc]
  rw [Styled.render, funext hplain]

namespace Bounds

variable (b : Bounds) (sizes : MemorySizes)

def items : List Item := b.extents.map Extent.item ++ ((b.sram sizes).items ++ (b.iram sizes).items)

private theorem sections_subset : b.extents.map Extent.item ⊆ b.items sizes := List.subset_append_left _ _

private theorem sram_subset : (b.sram sizes).items ⊆ b.items sizes := fun _ hi =>
  List.mem_append_right _ (List.mem_append_left _ hi)

private theorem iram_subset : (b.iram sizes).items ⊆ b.items sizes := fun _ hi =>
  List.mem_append_right _ (List.mem_append_right _ hi)

/-- The text is made of three lines of entries between rules. -/
private theorem toList_styled : ((MemoryUsage.ofBounds b sizes).styled.render false).toList =
    (MemoryUsage.rule '=' ++ "\n").toList ++ (bracketed (b.extents.map Extent.item) ++
      (("\n" ++ MemoryUsage.rule '-' ++ "\n").toList ++ (bracketed (b.sram sizes).items ++
        (("\n" ++ MemoryUsage.rule '-' ++ "\n").toList ++ (bracketed (b.iram sizes).items ++
          ("\n" ++ MemoryUsage.rule '=').toList))))) := by
  rw [Styled.render_false, String.toList_join]
  simp only [MemoryUsage.styled, MemoryUsage.memoryLine, Extent.item, Region.items, Item.text, extents,
    bracketed, text, rodata, bss, sram, iram, Span.plain, List.map_cons, List.map_nil, List.flatMap_cons,
    List.flatMap_nil, String.toList_append, List.append_assoc, List.nil_append, List.append_nil,
    List.cons_append]
  -- the same texts one after the other, cut at other places
  rfl

end Bounds

open MemoryUsage

section Words

variable {c : Char}

theorem not_mem_section_label (h : c ∉ ".text .rodata .bss ".toList) {b : Bounds} {x : Extent}
    (hx : x ∈ b.extents) :
    c ∉ x.item.label.toList := by
  have hall : b.extents.map (·.item.label) = [".text ", ".rodata ", ".bss "] := rfl
  have hlabels : ∀ label ∈ b.extents.map (·.item.label), label.toList ⊆ ".text .rodata .bss ".toList := by
    rw [hall]
    decide
  exact not_mem_of_subset (hlabels _ (List.mem_map_of_mem hx)) h

theorem not_mem_memory_label (h : c ∉ "SRAM IRAM used: free: ".toList) {b : Bounds} {sizes : MemorySizes}
    {r : Region} (hr : r ∈ b.regions sizes) {i : Item} (hi : i ∈ r.items) : c ∉ i.label.toList := by
  have hall : ((b.regions sizes).flatMap Region.items).map Item.label =
      ["IRAM used: ", "IRAM free: ", "SRAM used: ", "SRAM free: "] := rfl
  have hlabels : ∀ label ∈ ((b.regions sizes).flatMap Region.items).map Item.label,
      label.toList ⊆ "SRAM IRAM used: free: ".toList := by
    rw [hall]
    decide
  exact not_mem_of_subset (hlabels _ (List.mem_map_of_mem (List.mem_flatMap_of_mem hr hi))) h

variable (hdigit : ∀ d, Nat.digitChar d ≠ c)
include hdigit

private theorem not_mem_bytes (h : c ∉ " bytes".toList) (n : Nat) : c ∉ (s!"{n} bytes").toList :=
  not_mem_append (not_mem_repr hdigit n) h

private theorem not_mem_lengthSpan (h : c ∉ "invalid (end < start) bytes".toList) (length : Int) :
    c ∉ (lengthSpan length).text.toList := by
  rw [lengthSpan]
  split
  · exact not_mem_of_subset (by decide : "invalid (end < start)".toList ⊆ _) h
  · exact not_mem_bytes hdigit (not_mem_of_subset (by decide) h) _

private theorem not_mem_amountSpan (h : c ∉ "unknown overflow by bytes".toList) (amount : Option Int) :
    c ∉ (amountSpan amount).text.toList := by
  cases amount with
  | none => exact not_mem_of_subset (by decide : "unknown".toList ⊆ _) h
  | some n =>
    have hbytes : c ∉ " bytes".toList := not_mem_of_subset (by decide) h
    rw [amountSpan]
    split
    · have hfront : c ∉ "overflow by ".toList := not_mem_of_subset (by decide) h
      exact not_mem_append (not_mem_append hfront (not_mem_repr hdigit n.natAbs)) hbytes
    · exact not_mem_bytes hdigit hbytes _

theorem not_mem_section_text (h : c ∉ ".text .rodata .bss invalid (end < start) bytes".toList) {b : Bounds}
    {x : Extent} (hx : x ∈ b.extents) : c ∉ x.item.text.toList :=
  not_mem_append (not_mem_section_label (not_mem_of_subset (by decide) h) hx)
    (not_mem_lengthSpan hdigit (not_mem_of_subset (by decide) h) x.length)

theorem not_mem_memory_text (h : c ∉ "SRAM IRAM used: free: unknown overflow by bytes".toList) {b : Bounds}
    {sizes : MemorySizes} {r : Region} (hr : r ∈ b.regions sizes) {i : Item} (hi : i ∈ r.items) :
    c ∉ i.text.toList := by
  have hamount : ∃ amount, i.amount = amountSpan amount := by
    rcases List.mem_pair.1 hi with rfl | rfl
    · exact ⟨r.used, rfl⟩
    · exact ⟨r.free, rfl⟩
  obtain ⟨amount, hamount⟩ := hamount
  rw [Item.text, hamount]
  exact not_mem_append (not_mem_memory_label (not_mem_of_subset (by decide) h) hr hi)
    (not_mem_amountSpan hdigit (not_mem_of_subset (by decide) h) amount)

end Words

/-- A number of bytes has no `v`, which `invalid` and `overflow` both have. -/
theorem v_not_mem_bytes (n : Nat) : 'v' ∉ (s!"{n} bytes").toList :=
  not_mem_bytes (fun _ => Nat.digitChar_ne 'v' (by decide)) (by decide) n

theorem invalid_ne_bytes (n : Nat) : "invalid (end < start)" ≠ s!"{n} bytes" :=
  ne_of_not_mem (by decide) (v_not_mem_bytes n)

theorem unknown_ne_bytes (n : Nat) : "unknown" ≠ s!"{n} bytes" :=
  ne_of_not_mem (by decide : 'k' ∈ _)
    (not_mem_bytes (fun _ => Nat.digitChar_ne 'k' (by decide)) (by decide) n)

theorem overflow_ne {n : Nat} {words : String} (h : 'v' ∉ words.toList) :
    s!"overflow by {n} bytes" ≠ words := by
  have hv : 'v' ∈ (s!"overflow by {n} bytes").toList := by
    rw [String.toList_append, String.toList_append]
    exact List.mem_append_left _ (List.mem_append_left _ (by decide))
  exact ne_of_not_mem hv h

namespace Bounds

variable (b : Bounds) (sizes : MemorySizes)

theorem mem_items_iff {i : Item} :
    i ∈ b.items sizes ↔ (∃ x ∈ b.extents, x.item = i) ∨ ∃ r ∈ b.regions sizes, i ∈ r.items := by
  have hregions : (∃ r ∈ b.regions sizes, i ∈ r.items) ↔ i ∈ (b.iram sizes).items ∨
      i ∈ (b.sram sizes).items := by
    simp only [regions, List.mem_cons, List.not_mem_nil, or_false, exists_eq_or_imp, exists_eq_left]
  rw [items, List.mem_append, List.mem_append, List.mem_map, hregions,
    or_comm (a := i ∈ (b.iram sizes).items)]

private theorem not_mem_text {c : Char} (hdigit : ∀ d, Nat.digitChar d ≠ c)
    (hsection : c ∉ ".text .rodata .bss invalid (end < start) bytes".toList)
    (hmemory : c ∉ "SRAM IRAM used: free: unknown overflow by bytes".toList) {i : Item}
    (hi : i ∈ b.items sizes) :
    c ∉ i.text.toList := by
  rcases (b.mem_items_iff sizes).1 hi with ⟨x, hx, rfl⟩ | ⟨r, hr, hi⟩
  · exact not_mem_section_text hdigit hsection hx
  · exact not_mem_memory_text hdigit hmemory hr hi

end Bounds

namespace Extent

theorem text_lengthSpan_of_lt {x : Extent} (h : x.stop < x.start) :
    (lengthSpan x.length).text = "invalid (end < start)" := by
  rw [lengthSpan, if_pos (length_of_lt h).1]

theorem text_lengthSpan_of_le {x : Extent} (h : x.start ≤ x.stop) :
    (lengthSpan x.length).text = s!"{x.bytes} bytes" := by
  rw [lengthSpan, if_neg (by rw [length_of_le h]; omega), length_of_le h, Int.natAbs_natCast, Span.plain]

end Extent

theorem text_amountSpan_natCast (n : Nat) : (amountSpan (some (n : Int))).text = s!"{n} bytes" := by
  rw [amountSpan, if_neg (Int.natCast_nonneg n).not_gt, Int.natAbs_natCast, Span.plain]

theorem text_amountSpan_of_neg {n : Int} (h : n < 0) :
    (amountSpan (some n)).text = s!"overflow by {n.natAbs} bytes" := by
  rw [amountSpan, if_pos h]

namespace Bounds

variable (b : Bounds) (sizes : MemorySizes)

/-- The text is read back as its entries. -/
theorem brackets_styled :
    brackets ((ofBounds b sizes).styled.render false).toList = (b.items sizes).map Item.text := by
  have hfree {line : List Item} (hline : line ⊆ b.items sizes) :
      ∀ i ∈ line, '[' ∉ i.text.toList ∧ ']' ∉ i.text.toList := fun _ hi =>
    ⟨b.not_mem_text sizes (fun _ => Nat.digitChar_ne '[' (by decide)) (by decide) (by decide) (hline hi),
      b.not_mem_text sizes (fun _ => Nat.digitChar_ne ']' (by decide)) (by decide) (by decide) (hline hi)⟩
  have hfirst : '[' ∉ (rule '=' ++ "\n").toList := by decide
  have hbetween : '[' ∉ ("\n" ++ rule '-' ++ "\n").toList := by decide
  have hlast : brackets ("\n" ++ rule '=').toList = [] := by decide
  rw [toList_styled, brackets_append hfirst, brackets_bracketed (hfree (b.sections_subset sizes)),
    brackets_append hbetween, brackets_bracketed (hfree (b.sram_subset sizes)),
    brackets_append hbetween, brackets_bracketed (hfree (b.iram_subset sizes)),
    hlast, List.append_nil, items, List.map_append, List.map_append]

/-- The rules consist of minus signs, but there is a line feed before what follows. -/
theorem noNegative_styled : NoNegative ((ofBounds b sizes).styled.render false).toList := by
  have hminus {line : List Item} (hline : line ⊆ b.items sizes) : '-' ∉ bracketed line :=
    not_mem_bracketed (by decide) (by decide) fun _ hi =>
      b.not_mem_text sizes (fun _ => Nat.digitChar_ne '-' (by decide)) (by decide) (by decide) (hline hi)
  have hfirst : '-' ∉ (rule '=' ++ "\n").toList := by decide
  have hlast : '-' ∉ ("\n" ++ rule '=').toList := by decide
  have hbetween {rest : List Char} (hrest : NoNegative rest) :
      NoNegative (("\n" ++ rule '-' ++ "\n").toList ++ rest) :=
    noNegative_lineFeed (noNegative_rule 66 hrest)
  rw [toList_styled]
  refine noNegative_append hfirst (noNegative_append (hminus (b.sections_subset sizes)) (hbetween ?_))
  refine noNegative_append (hminus (b.sram_subset sizes)) (hbetween ?_)
  exact noNegative_append (hminus (b.iram_subset sizes)) (noNegative_of_not_mem hlast)

/-- An entry is found by its label. -/
theorem says_items {i : Item} (hi : i ∈ b.items sizes) :
    Says ((b.items sizes).map Item.text) i.label i.amount.text := by
  let slots := (b.items sizes).map fun i => (i.label, some i.text)
  have hfree : PrefixFree (slots.map Prod.fst) := by
    have hlabels : slots.map Prod.fst =
        [".text ", ".rodata ", ".bss ", "SRAM used: ", "SRAM free: ", "IRAM used: ", "IRAM free: "] := rfl
    rw [hlabels]
    decide
  have hlabel : ∀ slot ∈ slots, ∀ text ∈ slot.2, slot.1.toList <+: text.toList := by
    intro slot hslot text htext
    obtain ⟨i, -, rfl⟩ := List.mem_map.1 hslot
    obtain rfl := Option.some.inj htext
    exact isPrefix_append i.label i.amount.text
  have htexts : (b.items sizes).map Item.text = slots.filterMap Prod.snd := by
    rw [List.filterMap_map, ← List.filterMap_eq_map]
    rfl
  rw [htexts]
  exact starting_filterMap hfree hlabel (List.mem_map_of_mem hi)

end Bounds

/-! ### Warnings -/

namespace MemoryUsage

def messages (u : MemoryUsage) : List String := u.warnings.map (·.message)

end MemoryUsage

theorem MemoryWarning.message_inverted (name : String) (bytes : Nat) :
    (inverted name bytes).message =
      s!"Section {name} " ++ s!"ends {bytes} bytes before it starts; symbol table is inconsistent" := by
  simp only [message, String.append_assoc]
  rfl

theorem MemoryWarning.message_overflow (memory : String) (bytes : Nat) (size : UInt32) :
    (overflow memory bytes size).message = s!"{memory} overflow: " ++
      s!"{bytes} bytes over {hexSize size.toNat}" := by
  simp only [message, String.append_assoc]

private theorem Extent.eq_of_mem_warning? {x : Extent} {w : MemoryWarning} (hw : w ∈ x.warning?) :
    w = .inverted x.name x.length.natAbs := by
  rw [Extent.warning?, Option.mem_ite_none_right] at hw
  exact (Option.some.inj hw.2).symm

private theorem Region.eq_of_mem_warning? {r : Region} {w : MemoryWarning} (hw : w ∈ r.warning?) :
    ∃ bytes, w = .overflow r.name bytes r.size := by
  rw [Region.warning?] at hw
  split at hw
  · rw [Option.mem_ite_none_right] at hw
    exact ⟨_, (Option.some.inj hw.2).symm⟩
  · contradiction

namespace Bounds

variable (b : Bounds) (sizes : MemorySizes)

/-- The warnings that there may be, with the starts of their messages. -/
def slots : List (String × Option MemoryWarning) :=
  b.extents.map (fun x => (s!"Section {x.name} ", x.warning?)) ++
    (b.regions sizes).map fun r => (s!"{r.name} overflow: ", r.warning?)

theorem warnings_eq : (ofBounds b sizes).warnings =
    b.extents.filterMap Extent.warning? ++ (b.regions sizes).filterMap Region.warning? := rfl

/-- A warning is found by how its message starts. -/
theorem starting_messages {slot : String × Option MemoryWarning} (h : slot ∈ b.slots sizes) :
    starting slot.1 (ofBounds b sizes).messages = (slot.2.map MemoryWarning.message).toList := by
  let slots := (b.slots sizes).map fun slot => (slot.1, slot.2.map MemoryWarning.message)
  have hfree : PrefixFree (slots.map Prod.fst) := by
    have hstarts : slots.map Prod.fst =
        ["Section .text ", "Section .rodata ", "Section .bss ", "IRAM overflow: ", "SRAM overflow: "] := rfl
    rw [hstarts]
    decide
  have hlabel : ∀ slot ∈ slots, ∀ text ∈ slot.2, slot.1.toList <+: text.toList := by
    intro slot hslot text htext
    obtain ⟨source, hsource, rfl⟩ := List.mem_map.1 hslot
    obtain ⟨w, hw, rfl⟩ := Option.mem_map.1 htext
    rcases List.mem_append.1 hsource with hsource | hsource
    · obtain ⟨x, -, rfl⟩ := List.mem_map.1 hsource
      rw [Extent.eq_of_mem_warning? hw, MemoryWarning.message_inverted]
      exact isPrefix_append _ _
    · obtain ⟨r, -, rfl⟩ := List.mem_map.1 hsource
      obtain ⟨bytes, rfl⟩ := Region.eq_of_mem_warning? hw
      rw [MemoryWarning.message_overflow]
      exact isPrefix_append _ _
  have hmessages : (ofBounds b sizes).messages = slots.filterMap Prod.snd := by
    rw [messages, warnings_eq, List.filterMap_map, Bounds.slots, List.filterMap_append, List.filterMap_map,
      List.filterMap_map, List.map_append, List.map_filterMap, List.map_filterMap]
    rfl
  rw [hmessages]
  exact starting_filterMap hfree hlabel (List.mem_map_of_mem h)

theorem noNegative_messages {message : String} (h : message ∈ (ofBounds b sizes).messages) :
    NoNegative message.toList := by
  have hdigit (d : Nat) : Nat.digitChar d ≠ '-' := Nat.digitChar_ne '-' (by decide)
  apply noNegative_of_not_mem
  obtain ⟨w, hw, rfl⟩ := List.mem_map.1 h
  rw [warnings_eq, List.mem_append, List.mem_filterMap, List.mem_filterMap] at hw
  rcases hw with ⟨x, hx, hw⟩ | ⟨r, hr, hw⟩
  · have hname : '-' ∉ x.name.toList := by
      have hnames : ∀ name ∈ b.extents.map Extent.name, '-' ∉ name.toList := by
        have hall : b.extents.map Extent.name = [".text", ".rodata", ".bss"] := rfl
        rw [hall]
        decide
      exact hnames _ (List.mem_map_of_mem hx)
    rw [Extent.eq_of_mem_warning? hw]
    have hfront : '-' ∉ "Section ".toList := by decide
    have hends : '-' ∉ " ends ".toList := by decide
    have hbehind : '-' ∉ " bytes before it starts; symbol table is inconsistent".toList := by decide
    exact not_mem_append (not_mem_append (not_mem_append (not_mem_append hfront hname) hends)
      (not_mem_repr hdigit _)) hbehind
  · have hname : '-' ∉ r.name.toList := by
      have hnames : ∀ name ∈ (b.regions sizes).map Region.name, '-' ∉ name.toList := by
        have hall : (b.regions sizes).map Region.name = ["IRAM", "SRAM"] := rfl
        rw [hall]
        decide
      exact hnames _ (List.mem_map_of_mem hr)
    have hoverflow : '-' ∉ " overflow: ".toList := by decide
    have hover : '-' ∉ " bytes over ".toList := by decide
    have hsize : '-' ∉ (hexSize r.size.toNat).toList := not_mem_hexNumber hdigit (by decide) (by decide) 1 _
    obtain ⟨bytes, rfl⟩ := Region.eq_of_mem_warning? hw
    exact not_mem_append (not_mem_append (not_mem_append (not_mem_append hname hoverflow)
      (not_mem_repr hdigit _)) hover) hsize

end Bounds

end BootImage
