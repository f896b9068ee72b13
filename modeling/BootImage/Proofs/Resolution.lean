import BootImage.Layout
import BootImage.Proofs.Lines

/-!
# Resolving a layout

Which symbols a layout needs depends on the policy.  They are asked for one after the other, each by its name
and kind.

* (records) A name and kind have an address exactly if the table has a record of them: `SymbolTable.has_iff`.
* (marks) The layout is made of the addresses of all marks (`map_addressAt_ofTable`), so it is there if each
  of them has one, and otherwise the first that has none is the error: `ofTable_eq_ok_iff`,
  `ofTable_eq_error_iff`.
* (policies) A mark that has an address under the strict policy has the same under the legacy one, which adds
  addresses for two marks only: `address?_legacy_of_strict`, `optional_of_ofTable`.
* (frame) Records of other names and kinds are not asked for: `ofTable_congr`.
-/

namespace BootImage

def SymbolTable.Has (t : SymbolTable) (name : String) (kind : Kind) : Prop :=
  ∃ kept, t.byName[name]? = some kept ∧ ∃ address, (kind, address) ∈ kept

/-- The names and kinds that must be in the table, in the order in which they are asked for. -/
def Policy.required : Policy → List (String × Kind)
  | .strict =>
    [("bootloader_main", .text), ("_text_start", .absolute), ("_text_end", .absolute),
      ("_rodata_start", .absolute), ("_rodata_end", .absolute), ("_bss_start", .absolute),
      ("_bss_end", .absolute)]
  | .legacy =>
    [("bootloader_main", .text), ("_text_start", .absolute), ("_text_end", .absolute),
      ("_rodata_end", .absolute), ("_bss_start", .absolute)]

/-! ### Records -/

theorem SymbolTable.has_iff {t : SymbolTable} {name : String} {kind : Kind} :
    t.Has name kind ↔ ∃ a, t.lookup name kind = some a := by
  rw [Has, lookup]
  cases t.byName[name]? with
  | none => simp
  | some kept =>
    simp only [Option.some.injEq, exists_eq_left', Option.bind_eq_bind, Option.bind_some]
    rw [← Option.isSome_iff_exists, List.lookup_isSome_iff]
    constructor
    · rintro ⟨a, ha⟩
      exact ⟨(kind, a), ha, beq_self_eq_true kind⟩
    · rintro ⟨⟨kind', a⟩, ha, hkind⟩
      rw [eq_of_beq hkind]
      exact ⟨a, ha⟩

private theorem SymbolTable.lookup_eq_none_iff {t : SymbolTable} {name : String} {kind : Kind} :
    t.lookup name kind = none ↔ ¬t.Has name kind := by
  rw [has_iff, ← Option.isSome_iff_exists, Bool.not_eq_true, Option.isSome_eq_false_iff,
    Option.isNone_iff_eq_none]

private theorem Mark.mem_all (m : Mark) : m ∈ all := by cases m <;> decide

private theorem Policy.required_eq (policy : Policy) :
    policy.required = (Mark.all.filter fun m => !policy.optional m).map fun m => (m.name, m.kind) := by
  cases policy <;> rfl

namespace Layout

variable {policy : Policy} {t : SymbolTable} {m : Mark}

def addressAt (layout : Layout) : Mark → UInt32
  | .entry => layout.entry
  | .textStart => layout.bounds.textStart
  | .textEnd => layout.bounds.textEnd
  | .rodataStart => layout.bounds.rodataStart
  | .rodataEnd => layout.bounds.rodataEnd
  | .bssStart => layout.bounds.bssStart
  | .bssEnd => layout.bounds.bssEnd

/-- Every address of the layout is that of its own symbol; the two that the legacy policy does not ask for are
zero if they are absent. -/
structure FoundIn (layout : Layout) (policy : Policy) (t : SymbolTable) : Prop where
  entry : t.lookup "bootloader_main" .text = some layout.entry
  textStart : t.lookup "_text_start" .absolute = some layout.bounds.textStart
  textEnd : t.lookup "_text_end" .absolute = some layout.bounds.textEnd
  rodataStart : t.lookup "_rodata_start" .absolute = some layout.bounds.rodataStart ∨
    policy = .legacy ∧ ¬t.Has "_rodata_start" .absolute ∧ layout.bounds.rodataStart = 0
  rodataEnd : t.lookup "_rodata_end" .absolute = some layout.bounds.rodataEnd
  bssStart : t.lookup "_bss_start" .absolute = some layout.bounds.bssStart
  bssEnd : t.lookup "_bss_end" .absolute = some layout.bounds.bssEnd ∨
    policy = .legacy ∧ ¬t.Has "_bss_end" .absolute ∧ layout.bounds.bssEnd = 0

/-! ### Marks -/

private theorem address?_eq_some_iff {a : UInt32} : address? policy t m = some a ↔
    t.lookup m.name m.kind = some a ∨ policy.optional m ∧ ¬t.Has m.name m.kind ∧ a = 0 := by
  rw [address?, ← SymbolTable.lookup_eq_none_iff]
  cases t.lookup m.name m.kind with
  | some found => simp
  | none => cases policy.optional m <;> simp [eq_comm]

private theorem address?_eq_none_iff :
    address? policy t m = none ↔ policy.optional m = false ∧ ¬t.Has m.name m.kind := by
  rw [address?, ← SymbolTable.lookup_eq_none_iff]
  cases t.lookup m.name m.kind with
  | some found => simp
  | none => cases policy.optional m <;> simp

private theorem address_eq_ok_iff {a : UInt32} :
    address policy t m = .ok a ↔ address? policy t m = some a := by
  rw [address]
  cases address? policy t m <;> simp

private theorem address_eq_error_iff {m' : Mark} :
    address policy t m = .error m' ↔ m = m' ∧ address? policy t m = none := by
  rw [address]
  cases address? policy t m <;> simp

/-- The marks are looked up one after the other. -/
theorem map_addressAt_ofTable (policy : Policy) (t : SymbolTable) :
    (fun layout => Mark.all.map layout.addressAt) <$> ofTable policy t =
      Mark.all.mapM (address policy t) := by
  simp only [ofTable, map_bind, map_pure, Mark.all, List.mapM_cons, List.mapM_nil, bind_assoc, pure_bind]
  rfl

private theorem map_addressAt_inj {layout layout' : Layout} :
    Mark.all.map layout.addressAt = Mark.all.map layout'.addressAt ↔ layout = layout' := by
  obtain ⟨entry, bounds⟩ := layout
  obtain ⟨entry', bounds'⟩ := layout'
  cases bounds
  cases bounds'
  simp [Mark.all, addressAt]

theorem ofTable_eq_ok_iff {layout : Layout} :
    ofTable policy t = .ok layout ↔ ∀ m, address? policy t m = some (layout.addressAt m) := by
  have hmap : ofTable policy t = .ok layout ↔
      Mark.all.mapM (address policy t) = .ok (Mark.all.map layout.addressAt) := by
    rw [← map_addressAt_ofTable]
    cases ofTable policy t with
    | error m => simp
    | ok found => simpa using map_addressAt_inj.symm
  rw [hmap, mapM_eq_ok_iff, List.forall₂_map_right_iff, List.forall₂_same]
  simp only [address_eq_ok_iff, Mark.mem_all, forall_const]

theorem ofTable_eq_error_iff :
    ofTable policy t = .error m ↔ ∃ before after, Mark.all = before ++ m :: after ∧
      (∀ m' ∈ before, ∃ a, address? policy t m' = some a) ∧ address? policy t m = none := by
  have hmap : ofTable policy t = .error m ↔ Mark.all.mapM (address policy t) = .error m := by
    rw [← map_addressAt_ofTable]
    cases ofTable policy t <;> simp
  rw [hmap, mapM_eq_error_iff]
  simp only [address_eq_ok_iff, address_eq_error_iff]
  constructor
  · rintro ⟨before, _, after, hall, hbefore, rfl, hnone⟩
    exact ⟨before, after, hall, hbefore, hnone⟩
  · rintro ⟨before, after, hall, hbefore, hnone⟩
    exact ⟨before, m, after, hall, hbefore, rfl, hnone⟩

private theorem exists_ofTable_eq_ok_iff :
    (∃ layout, ofTable policy t = .ok layout) ↔ ∀ m, ∃ a, address? policy t m = some a := by
  constructor
  · rintro ⟨layout, hlayout⟩ m
    exact ⟨layout.addressAt m, ofTable_eq_ok_iff.1 hlayout m⟩
  · intro h
    cases hresult : ofTable policy t with
    | ok layout => exact ⟨layout, rfl⟩
    | error m =>
      obtain ⟨-, -, -, -, hnone⟩ := ofTable_eq_error_iff.1 hresult
      obtain ⟨a, ha⟩ := h m
      rw [hnone] at ha
      contradiction

private theorem exists_address?_iff :
    (∃ a, address? policy t m = some a) ↔ (policy.optional m = false → t.Has m.name m.kind) := by
  rw [← Option.isSome_iff_exists, Option.isSome_iff_ne_none, ne_eq, address?_eq_none_iff, not_and, not_not]

/-! ### Policies -/

theorem address?_legacy_of_strict {a : UInt32} (h : address? .strict t m = some a) :
    address? .legacy t m = some a := by
  rcases address?_eq_some_iff.1 h with hfound | ⟨hoptional, -⟩
  · exact address?_eq_some_iff.2 (.inl hfound)
  · cases hoptional

private theorem ofTable_legacy_of_strict {layout : Layout} (h : ofTable .strict t = .ok layout) :
    ofTable .legacy t = .ok layout := by
  rw [ofTable_eq_ok_iff] at h ⊢
  exact fun m => address?_legacy_of_strict (h m)

/-- What only the strict policy misses is one of the two marks that the legacy one does not ask for. -/
theorem optional_of_ofTable {layout : Layout} (hlegacy : ofTable .legacy t = .ok layout)
    (hstrict : ofTable .strict t = .error m) : m = .rodataStart ∨ m = .bssEnd := by
  obtain ⟨-, -, -, -, hnone⟩ := ofTable_eq_error_iff.1 hstrict
  have hmissing := (address?_eq_none_iff.1 hnone).2
  have hoptional : Policy.legacy.optional m := by
    by_contra hrequired
    rw [Bool.not_eq_true] at hrequired
    exact hmissing (exists_address?_iff.1 (exists_ofTable_eq_ok_iff.1 ⟨layout, hlegacy⟩ m) hrequired)
  -- no other mark is optional under any policy
  cases m <;> simp [Policy.optional] at hoptional ⊢

/-! ### Frame -/

theorem ofTable_congr {t' : SymbolTable} (h : ∀ m : Mark, t'.lookup m.name m.kind = t.lookup m.name m.kind) :
    ofTable policy t' = ofTable policy t := by
  have haddress : address policy t' = address policy t := by
    funext m
    rw [address, address, address?, address?, h]
  rw [ofTable, ofTable, haddress]

private theorem mem_required_strict (m : Mark) : (m.name, m.kind) ∈ Policy.strict.required := by
  cases m <;> decide

private theorem ofTable_insert {r : Record} (h : (r.name, r.kind) ∉ Policy.strict.required) :
    ofTable policy (t.insert r) = ofTable policy t := by
  apply ofTable_congr
  intro m
  rw [SymbolTable.lookup_insert, if_neg]
  rintro ⟨hname, hkind⟩
  rw [hname, hkind] at h
  exact h (mem_required_strict m)

/-! ### Resolution -/

private theorem foundIn_of_ofTable {layout : Layout} (h : ofTable policy t = .ok layout) :
    layout.FoundIn policy t := by
  have hat (m : Mark) := address?_eq_some_iff.1 (ofTable_eq_ok_iff.1 h m)
  have hlookup {m : Mark} (hrequired : policy.optional m = false) :
      t.lookup m.name m.kind = some (layout.addressAt m) := by
    simpa [hrequired] using hat m
  have hlegacy {m : Mark} (hoptional : policy.optional m) : policy = .legacy := by
    cases policy
    · cases hoptional
    · rfl
  exact {
    entry := hlookup (m := .entry) (by cases policy <;> rfl)
    textStart := hlookup (m := .textStart) (by cases policy <;> rfl)
    textEnd := hlookup (m := .textEnd) (by cases policy <;> rfl)
    rodataStart := (hat .rodataStart).imp_right (And.imp_left hlegacy)
    rodataEnd := hlookup (m := .rodataEnd) (by cases policy <;> rfl)
    bssStart := hlookup (m := .bssStart) (by cases policy <;> rfl)
    bssEnd := (hat .bssEnd).imp_right (And.imp_left hlegacy) }

/-- The first mark without an address is the first name and kind that must be there and is not. -/
private theorem exists_first_missing (h : ofTable policy t = .error m) :
    ∃ before after, policy.required = before ++ (m.name, m.kind) :: after ∧ (∀ s ∈ before, t.Has s.1 s.2) ∧
      ¬t.Has m.name m.kind := by
  obtain ⟨before, after, hall, hbefore, hnone⟩ := ofTable_eq_error_iff.1 h
  obtain ⟨hrequired, hmissing⟩ := address?_eq_none_iff.1 hnone
  -- the marks that may be absent fall out of the split
  refine ⟨(before.filter fun m => !policy.optional m).map fun m => (m.name, m.kind),
    (after.filter fun m => !policy.optional m).map fun m => (m.name, m.kind), ?_, ?_, hmissing⟩
  · rw [Policy.required_eq, hall, List.filter_append, List.map_append,
      List.filter_cons_of_pos (by simp [hrequired]), List.map_cons]
  · intro s hs
    obtain ⟨m', hm', rfl⟩ := List.mem_map.1 hs
    obtain ⟨hmem, hasked⟩ := List.mem_filter.1 hm'
    exact exists_address?_iff.1 (hbefore m' hmem) (by simpa using hasked)

private theorem forall_required_iff :
    (∀ s ∈ policy.required, t.Has s.1 s.2) ↔ ∀ m, policy.optional m = false → t.Has m.name m.kind := by
  rw [Policy.required_eq, List.forall_mem_map]
  simp only [List.mem_filter, Mark.mem_all, true_and, Bool.not_eq_true']

private theorem missingMessage_eq (m : Mark) :
    m.missingMessage = if m.kind = .text then s!"No entry point: missing text symbol '{m.name}'"
      else s!"Missing required symbol '{m.name}' (A)" := by
  cases m <;> rfl

/-- A layout is found exactly if all symbols that the policy asks for are in the table, and then each of its
addresses is that of its own symbol; otherwise the message names the first symbol that is missing.  What the
strict policy finds is found under the legacy one, which misses two symbols less, and records of other names
and kinds change nothing. -/
theorem ofTable_resolves (policy : Policy) (t : SymbolTable) :
    ((∃ layout, ofTable policy t = .ok layout) ↔ ∀ s ∈ policy.required, t.Has s.1 s.2) ∧
    (∀ layout, ofTable policy t = .ok layout → layout.FoundIn policy t) ∧
    (∀ m, ofTable policy t = .error m →
      ∃ before name kind after, policy.required = before ++ (name, kind) :: after ∧
      (∀ s ∈ before, t.Has s.1 s.2) ∧ ¬t.Has name kind ∧
      m.missingMessage = if kind = .text then s!"No entry point: missing text symbol '{name}'"
        else s!"Missing required symbol '{name}' (A)") ∧
    (∀ layout, ofTable .strict t = .ok layout → ofTable .legacy t = .ok layout) ∧
    (∀ layout m, ofTable .legacy t = .ok layout → ofTable .strict t = .error m →
      m.missingMessage = "Missing required symbol '_rodata_start' (A)" ∨
        m.missingMessage = "Missing required symbol '_bss_end' (A)") ∧
    ∀ r : Record, (r.name, r.kind) ∉ Policy.strict.required →
      ofTable policy (t.insert r) = ofTable policy t := by
  refine ⟨?_, fun _ => foundIn_of_ofTable, ?_, fun _ => ofTable_legacy_of_strict, ?_, fun _ => ofTable_insert⟩
  · rw [exists_ofTable_eq_ok_iff, forall_required_iff]
    simp only [exists_address?_iff]
  · intro m hm
    obtain ⟨before, after, hsplit, hbefore, hmissing⟩ := exists_first_missing hm
    exact ⟨before, m.name, m.kind, after, hsplit, hbefore, hmissing, missingMessage_eq m⟩
  · intro layout m hlegacy hstrict
    rcases optional_of_ofTable hlegacy hstrict with rfl | rfl
    · exact .inl rfl
    · exact .inr rfl

/-- Two records of the entry point count, and the later of them; that of another kind does not, and neither do
the symbols of a letter that is only shown as `A`. -/
theorem ofTable_resolves_competing :
    let t := SymbolTable.ofRecords [⟨"bootloader_main", .text, 0x100⟩, ⟨"_text_start", .absolute, 0x1000⟩,
      ⟨"_text_end", .absolute, 0x1005⟩, ⟨"_rodata_start", .absolute, 0x2000⟩,
      ⟨"_rodata_end", .absolute, 0x2003⟩, ⟨"_bss_start", .absolute, 0x2004⟩, ⟨"_bss_end", .other 'A', 0x2010⟩,
      ⟨"bootloader_main", .text, 0x104⟩]
    ofTable .legacy t = .ok ⟨0x104, ⟨0x1000, 0x1005, 0x2000, 0x2003, 0x2004, 0⟩⟩ ∧
      ofTable .strict t = .error .bssEnd ∧
      (∃ m : Mark, ofTable .strict t = .error m ∧
        (m.missingMessage = "Missing required symbol '_rodata_start' (A)" ∨
        m.missingMessage = "Missing required symbol '_bss_end' (A)")) ∧
      ofTable .legacy (t.insert ⟨"bootloader_main", .other 'T', 0x200⟩) = ofTable .legacy t := by
  intro t
  have hlegacy : ofTable .legacy t = .ok ⟨0x104, ⟨0x1000, 0x1005, 0x2000, 0x2003, 0x2004, 0⟩⟩ := by rfl
  have hstrict : ofTable .strict t = .error .bssEnd := by rfl
  obtain ⟨-, -, -, -, hnames, hframe⟩ := ofTable_resolves .legacy t
  exact ⟨hlegacy, hstrict, ⟨_, hstrict, hnames _ _ hlegacy hstrict⟩, hframe _ (by decide)⟩

end Layout

end BootImage
