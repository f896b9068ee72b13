import BootImage.Symbol.Table

/-!
# The layout that a symbol table describes

A layout is the entry point and the boundaries of the sections.  Each of its addresses is found at a mark, a
symbol of a known name and kind.  Under the legacy policy two of the marks may be absent and stand for address
zero.
-/

namespace BootImage

structure Bounds where
  textStart : UInt32 := 0
  textEnd : UInt32 := 0
  rodataStart : UInt32 := 0
  rodataEnd : UInt32 := 0
  bssStart : UInt32 := 0
  bssEnd : UInt32 := 0
  deriving DecidableEq, Repr

structure Layout where
  entry : UInt32
  bounds : Bounds
  deriving DecidableEq, Repr

/-- The symbols that a layout is read from. -/
inductive Mark
  | entry
  | textStart
  | textEnd
  | rodataStart
  | rodataEnd
  | bssStart
  | bssEnd
  deriving DecidableEq, Repr

namespace Mark

/-- All marks, in the order in which they are looked up. -/
def all : List Mark := [.entry, .textStart, .textEnd, .rodataStart, .rodataEnd, .bssStart, .bssEnd]

def name : Mark → String
  | .entry => "bootloader_main"
  | .textStart => "_text_start"
  | .textEnd => "_text_end"
  | .rodataStart => "_rodata_start"
  | .rodataEnd => "_rodata_end"
  | .bssStart => "_bss_start"
  | .bssEnd => "_bss_end"

def kind : Mark → Kind
  | .entry => .text
  | _ => .absolute

def missingMessage (m : Mark) : String :=
  if m = .entry then s!"No entry point: missing text symbol '{m.name}'"
  else MissingSymbol.message ⟨m.name, m.kind⟩

end Mark

/-- How to treat marks that older linker scripts do not define. -/
inductive Policy
  | strict
  | legacy
  deriving DecidableEq, Repr

def Policy.optional : Policy → Mark → Bool
  | .legacy, .rodataStart => true
  | .legacy, .bssEnd => true
  | _, _ => false

namespace Layout

/-- The address at a mark: zero if the mark is absent and may be. -/
def address? (policy : Policy) (table : SymbolTable) (m : Mark) : Option UInt32 :=
  (table.lookup m.name m.kind).or (if policy.optional m then some 0 else none)

def address (policy : Policy) (table : SymbolTable) (m : Mark) : Except Mark UInt32 :=
  match address? policy table m with
  | some a => .ok a
  | none => .error m

/-- Looks up all marks; the first one without an address is the error. -/
def ofTable (policy : Policy) (table : SymbolTable) : Except Mark Layout := do
  let entry ← address policy table .entry
  let textStart ← address policy table .textStart
  let textEnd ← address policy table .textEnd
  let rodataStart ← address policy table .rodataStart
  let rodataEnd ← address policy table .rodataEnd
  let bssStart ← address policy table .bssStart
  let bssEnd ← address policy table .bssEnd
  return ⟨entry, ⟨textStart, textEnd, rodataStart, rodataEnd, bssStart, bssEnd⟩⟩

/-- The absent marks that resolution gave address zero, up to its first failure. -/
def defaulted (policy : Policy) (table : SymbolTable) : List Mark :=
  (Mark.all.takeWhile fun m => (address? policy table m).isSome).filter
    fun m => (table.lookup m.name m.kind).isNone

end Layout

end BootImage
