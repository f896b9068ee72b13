import Std.Data.TreeMap
import BootImage.Symbol.Record

/-!
# Symbol tables

A table keeps, for each name, the records of that name from the latest to the earliest.  The address of a name
and kind is that of the latest record with both, so records of other kinds never hide one another.
-/

namespace BootImage

structure SymbolTable where
  /-- For each name its kinds and addresses, the latest first. -/
  byName : Std.TreeMap String (List (Kind × UInt32)) := ∅

structure MissingSymbol where
  name : String
  kind : Kind
  deriving DecidableEq, Repr

def MissingSymbol.message (m : MissingSymbol) : String :=
  s!"Missing required symbol '{m.name}' ({m.kind.letter})"

namespace SymbolTable

def insert (t : SymbolTable) (r : Record) : SymbolTable :=
  { byName := t.byName.alter r.name fun earlier => some ((r.kind, r.address) :: earlier.getD []) }

def ofRecords (records : List Record) : SymbolTable := records.foldl insert {}

/-- The address of the latest record with this name and kind. -/
def lookup (t : SymbolTable) (name : String) (kind : Kind) : Option UInt32 :=
  t.byName[name]? >>= (·.lookup kind)

def require (t : SymbolTable) (name : String) (kind : Kind) : Except MissingSymbol UInt32 :=
  match t.lookup name kind with
  | some address => .ok address
  | none => .error ⟨name, kind⟩

/-- The number of records, repeated ones included. -/
def size (t : SymbolTable) : Nat := t.byName.foldl (fun count _ records => count + records.length) 0

def isEmpty (t : SymbolTable) : Bool := t.byName.isEmpty

theorem lookup_empty (name : String) (kind : Kind) : lookup {} name kind = none := by
  simp [lookup]

/-- A record decides the address of its own name and kind, and of nothing else. -/
theorem lookup_insert (t : SymbolTable) (r : Record) (name : String) (kind : Kind) :
    (t.insert r).lookup name kind =
      if r.name = name ∧ r.kind = kind then some r.address else t.lookup name kind := by
  simp only [lookup, insert, Std.TreeMap.getElem?_alter]
  by_cases hn : r.name = name
  · subst hn
    by_cases hk : r.kind = kind
    · subst hk
      simp
    · cases h : t.byName[r.name]? <;> simp [List.lookup_cons, hk, beq_eq_false_iff_ne.mpr (Ne.symm hk)]
  · simp [hn, Std.LawfulEqCmp.compare_eq_iff_eq]

@[simp] theorem isEmpty_insert (t : SymbolTable) (r : Record) : (t.insert r).isEmpty = false := by
  simp [isEmpty, insert]

end SymbolTable

end BootImage
