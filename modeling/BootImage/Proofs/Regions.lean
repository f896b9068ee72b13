import Mathlib
import BootImage.Memory

/-!
# Sections and memories

What the addresses of a program's sections say about the memories that hold them.

* (lengths) A section that ends before its start has a negative length: `Extent.length_of_lt`,
  `Extent.length_of_le`.
* (counts) Unless one of its sections does, a memory's counts are the bytes of its sections and what is left
  of its size: `Bounds.counted_of_mem_regions`.
* (range) Signed words of 64 bits hold all numbers on the way to them: `Bounds.signedResults_bounds`.
-/

namespace BootImage

structure Extent where
  name : String
  start : UInt32
  stop : UInt32

namespace Extent

def bytes (x : Extent) : Nat := x.stop.toNat - x.start.toNat

def excess (x : Extent) : Nat := x.start.toNat - x.stop.toNat

def length (x : Extent) : Int := MemoryUsage.span x.start x.stop

def warning? (x : Extent) : Option MemoryWarning :=
  if x.length < 0 then some (.inverted x.name x.length.natAbs) else none

end Extent

namespace Bounds

def text (b : Bounds) : Extent := ⟨".text", b.textStart, b.textEnd⟩

def rodata (b : Bounds) : Extent := ⟨".rodata", b.rodataStart, b.rodataEnd⟩

def bss (b : Bounds) : Extent := ⟨".bss", b.bssStart, b.bssEnd⟩

def extents (b : Bounds) : List Extent := [b.text, b.rodata, b.bss]

end Bounds

/-- A memory with the sections that it holds, and how much of it is counted as used and as free. -/
structure Region where
  name : String
  size : UInt32
  extents : List Extent
  used : Option Int
  free : Option Int

namespace Region

def Valid (r : Region) : Prop := ∀ x ∈ r.extents, x.start ≤ x.stop

def demand (r : Region) : Nat := (r.extents.map Extent.bytes).sum

def warning? (r : Region) : Option MemoryWarning :=
  match r.free with
  | some n => if n < 0 then some (.overflow r.name n.natAbs r.size) else none
  | none => none

end Region

namespace Bounds

def iram (b : Bounds) (sizes : MemorySizes) : Region :=
  let u := MemoryUsage.ofBounds b sizes
  ⟨"IRAM", sizes.iram, [b.text], u.iramUsed, u.iramFree⟩

def sram (b : Bounds) (sizes : MemorySizes) : Region :=
  let u := MemoryUsage.ofBounds b sizes
  ⟨"SRAM", sizes.sram, [b.rodata, b.bss], u.sramUsed, u.sramFree⟩

def regions (b : Bounds) (sizes : MemorySizes) : List Region := [b.iram sizes, b.sram sizes]

end Bounds

namespace MemoryUsage

/-- The results of signed arithmetic on the way to the report and the warnings: the lengths, the sum of the
lengths in data memory, which is computed whatever their signs, the free bytes, and the amounts that the
negative ones of these are turned into. -/
def signedResults (u : MemoryUsage) : List Int :=
  let lengths := u.sections.map Prod.snd
  let free := u.memories.filterMap fun (_, free, _) => free
  lengths ++ (u.rodataLength + u.bssLength) :: free ++ (lengths ++ free).map (- ·)

end MemoryUsage

open MemoryUsage

namespace Extent

theorem length_of_lt {x : Extent} (h : x.stop < x.start) : x.length < 0 ∧ x.length.natAbs = x.excess := by
  rw [UInt32.lt_iff_toNat_lt] at h
  rw [length, span, excess]
  omega

private theorem length_nonneg_iff (x : Extent) : 0 ≤ x.length ↔ x.start ≤ x.stop := by
  rw [UInt32.le_iff_toNat_le, length, span]
  omega

theorem length_of_le {x : Extent} (h : x.start ≤ x.stop) : x.length = x.bytes := by
  rw [UInt32.le_iff_toNat_le] at h
  rw [length, span, bytes]
  omega

private theorem length_bounds (x : Extent) : -2 ^ 32 < x.length ∧ x.length < 2 ^ 32 := by
  have hstart := x.start.toNat_lt
  have hstop := x.stop.toNat_lt
  rw [length, span]
  omega

theorem warning?_of_lt {x : Extent} (h : x.stop < x.start) :
    x.warning? = some (.inverted x.name x.excess) := by
  rw [warning?, if_pos (length_of_lt h).1, (length_of_lt h).2]

theorem warning?_of_le {x : Extent} (h : x.start ≤ x.stop) : x.warning? = none := by
  rw [warning?, if_neg (by rw [length_of_le h]; omega)]

end Extent

namespace Region

structure Counted (r : Region) : Prop where
  of_valid : r.Valid → r.used = some (r.demand : Int) ∧ r.free = some (r.size.toNat - r.demand : Int)
  of_not_valid : ¬r.Valid → r.used = none ∧ r.free = none

private theorem Counted.of_used {r : Region} (hvalid : r.Valid → r.used = some (r.demand : Int))
    (hnone : ¬r.Valid → r.used = none) (hfree : r.free = r.used.map ((r.size.toNat : Int) - ·)) :
    r.Counted := by
  constructor
  · intro h
    rw [hfree, hvalid h]
    exact ⟨rfl, rfl⟩
  · intro h
    rw [hfree, hnone h]
    exact ⟨rfl, rfl⟩

end Region

namespace Bounds

variable (b : Bounds) (sizes : MemorySizes)

private theorem iram_counted : (b.iram sizes).Counted := by
  have hused : (b.iram sizes).used = if 0 ≤ b.text.length then some b.text.length else none := rfl
  have hvalid : (b.iram sizes).Valid ↔ b.text.start ≤ b.text.stop := List.forall_mem_singleton
  refine .of_used ?_ ?_ rfl
  · intro h
    rw [hvalid] at h
    have hdemand : (b.iram sizes).demand = b.text.bytes := List.sum_singleton
    rw [hused, if_pos (b.text.length_nonneg_iff.2 h), Extent.length_of_le h, hdemand]
  · intro h
    rw [hvalid, ← Extent.length_nonneg_iff] at h
    rw [hused, if_neg h]

private theorem sram_counted : (b.sram sizes).Counted := by
  have hused : (b.sram sizes).used = if 0 ≤ b.rodata.length ∧ 0 ≤ b.bss.length then
      some (b.rodata.length + b.bss.length) else none := rfl
  have hvalid : (b.sram sizes).Valid ↔ b.rodata.start ≤ b.rodata.stop ∧ b.bss.start ≤ b.bss.stop := by
    rw [Region.Valid, sram, List.forall_mem_cons, List.forall_mem_singleton]
  refine .of_used ?_ ?_ rfl
  · intro h
    obtain ⟨hrodata, hbss⟩ := hvalid.1 h
    have hdemand : (b.sram sizes).demand = b.rodata.bytes + b.bss.bytes := List.sum_pair
    rw [hused, if_pos ⟨b.rodata.length_nonneg_iff.2 hrodata, b.bss.length_nonneg_iff.2 hbss⟩,
      Extent.length_of_le hrodata, Extent.length_of_le hbss, hdemand, Nat.cast_add]
  · intro h
    rw [hvalid, ← Extent.length_nonneg_iff, ← Extent.length_nonneg_iff] at h
    rw [hused, if_neg h]

theorem counted_of_mem_regions {r : Region} (hr : r ∈ b.regions sizes) : r.Counted := by
  rcases List.mem_pair.1 hr with rfl | rfl
  · exact b.iram_counted sizes
  · exact b.sram_counted sizes

private theorem demand_lt {r : Region} (hr : r ∈ b.regions sizes) : r.demand < 2 ^ 33 := by
  have hbytes (x : Extent) : x.bytes < 2 ^ 32 := Nat.lt_of_le_of_lt (Nat.sub_le _ _) x.stop.toNat_lt
  rcases List.mem_pair.1 hr with rfl | rfl
  · have hdemand : (b.iram sizes).demand = b.text.bytes := List.sum_singleton
    have htext := hbytes b.text
    omega
  · have hdemand : (b.sram sizes).demand = b.rodata.bytes + b.bss.bytes := List.sum_pair
    have hrodata := hbytes b.rodata
    have hbss := hbytes b.bss
    omega

/-- Lengths and free bytes stay far from the bounds: neither has more than three words in it. -/
private theorem bounds_of_mem {n : Int}
    (hn : n ∈ b.extents.map Extent.length ++ (b.regions sizes).filterMap Region.free) :
    -2 ^ 33 < n ∧ n < 2 ^ 33 := by
  rcases List.mem_append.1 hn with hn | hn
  · obtain ⟨x, -, rfl⟩ := List.mem_map.1 hn
    have hx := x.length_bounds
    omega
  · obtain ⟨r, hr, hn⟩ := List.mem_filterMap.1 hn
    have hcounted := b.counted_of_mem_regions sizes hr
    have hdemand := b.demand_lt sizes hr
    have hsize := r.size.toNat_lt
    by_cases hvalid : r.Valid
    · rw [(hcounted.of_valid hvalid).2] at hn
      obtain rfl := Option.some.inj hn
      omega
    · rw [(hcounted.of_not_valid hvalid).2] at hn
      contradiction

theorem signedResults_bounds : ∀ n ∈ (ofBounds b sizes).signedResults, -2 ^ 63 ≤ n ∧ n < 2 ^ 63 := by
  have hresults : (ofBounds b sizes).signedResults =
      b.extents.map Extent.length ++ (b.rodata.length + b.bss.length) ::
        (b.regions sizes).filterMap Region.free ++
        (b.extents.map Extent.length ++ (b.regions sizes).filterMap Region.free).map (- ·) := rfl
  intro n hn
  rw [hresults] at hn
  rcases List.mem_append.1 hn with hn | hn
  · rcases List.mem_append.1 hn with hn | hn
    · have hlength := b.bounds_of_mem sizes (List.mem_append_left _ hn)
      omega
    · rcases List.mem_cons.1 hn with rfl | hn
      · have hrodata := b.rodata.length_bounds
        have hbss := b.bss.length_bounds
        omega
      · have hfree := b.bounds_of_mem sizes (List.mem_append_right _ hn)
        omega
  · obtain ⟨m, hm, rfl⟩ := List.mem_map.1 hn
    have hbounds := b.bounds_of_mem sizes hm
    omega

end Bounds

end BootImage
