import BootImage.Layout
import BootImage.Text.Hex
import BootImage.Text.Styled

/-!
# Memory usage

Instruction memory (IRAM) holds `.text`; data memory (SRAM) holds `.rodata` and `.bss`.  A section whose end
is below its start has a negative length; it is reported as invalid, and what depends on it as unknown, so
that no negative number is ever printed.
-/

namespace BootImage

structure MemorySizes where
  iram : UInt32 := 0x4000
  sram : UInt32 := 0x1000
  deriving DecidableEq, Repr

structure MemoryUsage where
  textLength : Int
  rodataLength : Int
  bssLength : Int
  sizes : MemorySizes
  deriving DecidableEq, Repr

inductive MemoryWarning
  /-- A section ends before it starts. -/
  | inverted (name : String) (bytes : Nat)
  /-- More memory is used than there is. -/
  | overflow (memory : String) (bytes : Nat) (size : UInt32)
  deriving DecidableEq, Repr

def MemoryWarning.message : MemoryWarning → String
  | .inverted name bytes =>
    s!"Section {name} ends {bytes} bytes before it starts; symbol table is inconsistent"
  | .overflow memory bytes size => s!"{memory} overflow: {bytes} bytes over {hexSize size.toNat}"

namespace MemoryUsage

def span (start stop : UInt32) : Int := stop.toNat - start.toNat

def ofBounds (b : Bounds) (sizes : MemorySizes) : MemoryUsage :=
  ⟨span b.textStart b.textEnd, span b.rodataStart b.rodataEnd, span b.bssStart b.bssEnd, sizes⟩

def iramUsed (u : MemoryUsage) : Option Int := if 0 ≤ u.textLength then some u.textLength else none

def sramUsed (u : MemoryUsage) : Option Int :=
  if 0 ≤ u.rodataLength ∧ 0 ≤ u.bssLength then some (u.rodataLength + u.bssLength) else none

def iramFree (u : MemoryUsage) : Option Int := u.iramUsed.map (u.sizes.iram.toNat - ·)

def sramFree (u : MemoryUsage) : Option Int := u.sramUsed.map (u.sizes.sram.toNat - ·)

def sections (u : MemoryUsage) : List (String × Int) :=
  [(".text", u.textLength), (".rodata", u.rodataLength), (".bss", u.bssLength)]

def memories (u : MemoryUsage) : List (String × Option Int × UInt32) :=
  [("IRAM", u.iramFree, u.sizes.iram), ("SRAM", u.sramFree, u.sizes.sram)]

/-- What is wrong with the usage: inverted sections first, then overfull memories. -/
def warnings (u : MemoryUsage) : List MemoryWarning :=
  (u.sections.filterMap fun (name, length) =>
      if length < 0 then some (.inverted name length.natAbs) else none) ++
    u.memories.filterMap fun (name, free, size) =>
      match free with
      | some n => if n < 0 then some (.overflow name n.natAbs size) else none
      | none => none

def lengthSpan (length : Int) : Span :=
  if length < 0 then ⟨"invalid (end < start)", some .yellow⟩ else .plain s!"{length.natAbs} bytes"

def amountSpan : Option Int → Span
  | none => ⟨"unknown", some .yellow⟩
  | some n => if n < 0 then ⟨s!"overflow by {n.natAbs} bytes", some .red⟩ else .plain s!"{n.natAbs} bytes"

def rule (c : Char) : String := String.ofList (List.replicate 66 c)

def memoryLine (name : String) (used free : Option Int) : Styled :=
  [.plain s!"[{name} used: ", amountSpan used, .plain s!"][{name} free: ", amountSpan free, .plain "]\n"]

/-- The usage as it is printed, without a line feed at its end. -/
def styled (u : MemoryUsage) : Styled :=
  [.plain (rule '=' ++ "\n[.text "), lengthSpan u.textLength, .plain "][.rodata ", lengthSpan u.rodataLength,
    .plain "][.bss ", lengthSpan u.bssLength, .plain ("]\n" ++ rule '-' ++ "\n")] ++
    memoryLine "SRAM" u.sramUsed u.sramFree ++ [.plain (rule '-' ++ "\n")] ++
    memoryLine "IRAM" u.iramUsed u.iramFree ++ [.plain (rule '=')]

end MemoryUsage

end BootImage
