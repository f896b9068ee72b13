import Mathlib
import BootImage.Proofs.Lines

/-!
# Symbol tables and lists of records

A symbol table groups its records by name.  It answers every question as the list of all records does in the
order of their insertion, when this list is searched from its end: `Answers`.

* (step) An insertion extends the list by the record: `Answers.insert`.  For the number of records this needs
  that an insertion lengthens the records of one name by one and keeps all others: `size_insert`.
* (run) `Answers.foldl_insert` is the case of many insertions, and `Listing.table_answers` that of a table
  which is read from a listing and then extended.
-/

namespace BootImage

namespace SymbolTable

def latest? (records : List Record) (name : String) (kind : Kind) : Option UInt32 :=
  ((records.filter fun r => r.name = name ∧ r.kind = kind).getLast?).map Record.address

/-- The table answers as the list of records, searched from its end. -/
structure Answers (t : SymbolTable) (records : List Record) : Prop where
  lookup : ∀ name kind, t.lookup name kind = latest? records name kind
  require : ∀ name kind, t.require name kind = (latest? records name kind).elim (.error ⟨name, kind⟩) .ok
  size : t.size = records.length
  isEmpty : t.isEmpty ↔ records = []

private theorem latest?_concat (records : List Record) (r : Record) (name : String) (kind : Kind) :
    latest? (records ++ [r]) name kind =
      if r.name = name ∧ r.kind = kind then some r.address else latest? records name kind := by
  rw [latest?, List.filter_append]
  by_cases h : r.name = name ∧ r.kind = kind
  · rw [if_pos h, List.filter_singleton, decide_eq_true h]
    simp
  · rw [if_neg h, List.filter_singleton, decide_eq_false h]
    simp [latest?]

private theorem require_eq_elim (t : SymbolTable) (name : String) (kind : Kind) :
    t.require name kind = (t.lookup name kind).elim (.error ⟨name, kind⟩) .ok := by
  rw [require]
  cases t.lookup name kind <;> rfl

/-! ### Numbers of records -/

section Size

variable (t : SymbolTable) (name : String) (kept : List (Kind × UInt32))

private theorem size_eq_sum : t.size = (t.byName.toList.map fun entry => entry.2.length).sum := by
  rw [size, Std.TreeMap.foldl_eq_foldl_toList, List.sum_eq_foldl, List.foldl_map]

/-- Tables with the same records for each name have the same size. -/
private theorem size_congr {a b : SymbolTable} (h : ∀ name : String, a.byName[name]? = b.byName[name]?) :
    a.size = b.size := by
  rw [size_eq_sum, size_eq_sum, (Std.TreeMap.Equiv.of_forall_constGet?_eq h).toList_eq]

def sizeWithout : Nat :=
  ((t.byName.toList.filter fun entry => ¬name == entry.1).map fun entry => entry.2.length).sum

private theorem size_put : size ⟨t.byName.insert name kept⟩ = kept.length + t.sizeWithout name := by
  rw [size_eq_sum, (Std.TreeMap.toList_insert_perm.map _).sum_nat, List.map_cons, List.sum_cons, sizeWithout]

private theorem size_eq : t.size = (t.byName[name]?.getD []).length + t.sizeWithout name := by
  cases hname : t.byName[name]? with
  | none =>
    have hall : (t.byName.toList.filter fun entry => ¬name == entry.1) = t.byName.toList := by
      rw [List.filter_eq_self]
      intro entry hentry
      have hfound : t.byName[entry.1]? = some entry.2 := Std.TreeMap.mem_toList_iff_getElem?_eq_some.1 hentry
      rw [decide_eq_true_iff, beq_iff_eq]
      rintro rfl
      rw [hname] at hfound
      exact absurd hfound nofun
    rw [size_eq_sum, sizeWithout, hall, Option.getD_none, List.length_nil, Nat.zero_add]
  | some earlier =>
    rw [Option.getD_some, ← size_put]
    apply size_congr
    intro other
    rw [Std.TreeMap.getElem?_insert]
    split
    · rename_i heq
      rw [← Std.LawfulEqCmp.eq_of_compare heq, hname]
    · rfl

theorem size_insert (r : Record) : (t.insert r).size = t.size + 1 := by
  have hput : (t.insert r).size =
      size ⟨t.byName.insert r.name ((r.kind, r.address) :: t.byName[r.name]?.getD [])⟩ := by
    apply size_congr
    intro other
    rw [insert, Std.TreeMap.getElem?_alter, Std.TreeMap.getElem?_insert]
  rw [hput, size_put, t.size_eq r.name, List.length_cons]
  omega

end Size

/-! ### Runs of insertions -/

private theorem answers_empty : Answers {} [] where
  lookup := lookup_empty
  require name kind := by rw [require_eq_elim, lookup_empty]; rfl
  size := rfl
  isEmpty := by simp [isEmpty]

theorem Answers.insert {t : SymbolTable} {records : List Record} (h : t.Answers records) (r : Record) :
    (t.insert r).Answers (records ++ [r]) := by
  have hlookup (name : String) (kind : Kind) : (t.insert r).lookup name kind =
      latest? (records ++ [r]) name kind := by
    rw [lookup_insert, h.lookup, latest?_concat]
  exact {
    lookup := hlookup
    require := fun name kind => by rw [require_eq_elim, hlookup]
    size := by rw [size_insert, h.size, List.length_append, List.length_singleton]
    isEmpty := by simp }

theorem Answers.foldl_insert {t : SymbolTable} {records : List Record} (h : t.Answers records)
    (inserted : List Record) : (inserted.foldl SymbolTable.insert t).Answers (records ++ inserted) := by
  induction inserted generalizing t records with
  | nil => rwa [List.append_nil]
  | cons r inserted ih =>
    have hnext := ih (h.insert r)
    rwa [List.append_assoc] at hnext

private theorem answers_ofRecords (records : List Record) : (ofRecords records).Answers records :=
  answers_empty.foldl_insert records

end SymbolTable

namespace Listing

/-- A table that is read from a listing and then extended answers as the list of the records on the lines of
the listing's text, in file order, followed by the inserted ones. -/
theorem table_answers {bytes : Bytes} {t : SymbolTable} (h : table bytes = .ok t) (inserted : List Record) :
    ∃ text found, decodeText? bytes = some text ∧
      (text.toList.splitOn '\n').mapM (fun line => Record.ofLine (String.ofList line)) = .ok found ∧
      (inserted.foldl SymbolTable.insert t).Answers (found.reduceOption ++ inserted) := by
  cases hentries : entries bytes with
  | error e => simp [table, records, hentries, Except.map] at h
  | ok found =>
    rw [table, records, hentries] at h
    obtain rfl : SymbolTable.ofRecords found.reduceOption = t := Except.ok.inj h
    obtain ⟨text, all, htext, hall, hreduce⟩ := exists_text_of_entries hentries
    refine ⟨text, all, htext, hall, ?_⟩
    rw [hreduce]
    exact (SymbolTable.answers_ofRecords _).foldl_insert inserted

/-- Two lines of a listing name `main`, with different kinds, and a third record of it is inserted. -/
theorem table_answers_main :
    ∃ t, table (encodeText "100 T main\n\n200 A main\r\n".toList) = .ok t ∧
      (SymbolTable.insert t ⟨"main", .absolute, 3⟩).Answers
        [⟨"main", .text, 0x100⟩, ⟨"main", .absolute, 0x200⟩, ⟨"main", .absolute, 3⟩] := by
  have hread : records (encodeText "100 T main\n\n200 A main\r\n".toList) =
      .ok [⟨"main", .text, 0x100⟩, ⟨"main", .absolute, 0x200⟩] := by rfl
  have htable := congrArg (Except.map SymbolTable.ofRecords) hread
  obtain ⟨text, found, htext, hfound, hanswers⟩ := table_answers htable [⟨"main", .absolute, 3⟩]
  obtain rfl : "100 T main\n\n200 A main\r\n" = text :=
    Option.some.inj ((decodeText?_eq_some_iff.2 rfl).symm.trans htext)
  have hlines : ("100 T main\n\n200 A main\r\n".toList.splitOn '\n').mapM
      (fun line => Record.ofLine (String.ofList line)) =
        .ok [some ⟨"main", .text, 0x100⟩, none, some ⟨"main", .absolute, 0x200⟩, none] := by rfl
  obtain rfl := Except.ok.inj (hlines.symm.trans hfound)
  exact ⟨_, htable, hanswers⟩

end Listing

end BootImage
