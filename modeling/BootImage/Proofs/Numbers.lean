import BootImage.Proofs.Digits
import BootImage.Text.Hex

/-!
# Numbers of either radix

A number is a hexadecimal numeral behind `0x` or `0X`, or a decimal numeral that has no such mark.

* (reading) Exactly the numbers below the end of a word are read: `readNumber_eq_ok_iff`.
* (rendering) The digits that are printed spell the number, in either case of the letters and behind any
  zeros: `spells_hexDigits`, `spells_repr`.  `readNumber_reads` puts both together.
-/

namespace BootImage.Numeral

def Marked (text cs : List Char) : Prop := text = '0' :: 'x' :: cs ∨ text = '0' :: 'X' :: cs

/-- The text is a number: a hexadecimal numeral behind a mark, or a decimal numeral without one. -/
def IsNumber (text : List Char) (n : Nat) : Prop :=
  (∃ cs, Marked text cs ∧ Denotes 16 cs n) ∨ (∀ cs, ¬Marked text cs) ∧ Denotes 10 text n

/-- The characters are the same, but capital letters may stand for small ones. -/
def Capitalizes (cs digits : List Char) : Prop := List.Forall₂ (fun c d => c = d ∨ c = d.toUpper) cs digits

/-! ### Reading -/

/-- A text has a mark or not, and this decides how it is read. -/
private theorem radixOf_cases (text : List Char) :
    (∃ cs, Marked text cs ∧ radixOf text = (16, cs)) ∨ (∀ cs, ¬Marked text cs) ∧
      radixOf text = (10, text) := by
  unfold radixOf
  split
  · rename_i cs
    exact .inl ⟨cs, .inl rfl, rfl⟩
  · rename_i cs
    exact .inl ⟨cs, .inr rfl, rfl⟩
  · rename_i hsmall hcapital
    refine .inr ⟨?_, rfl⟩
    rintro cs (h | h)
    · exact hsmall cs h
    · exact hcapital cs h

theorem Marked.unique {text cs cs' : List Char} (h : Marked text cs) (h' : Marked text cs') : cs = cs' := by
  rcases h with rfl | rfl <;> rcases h' with h' | h' <;> simp_all

private theorem isNumber_iff (text : List Char) (n : Nat) :
    IsNumber text n ↔ Denotes (radixOf text).1 (radixOf text).2 n := by
  rcases radixOf_cases text with ⟨cs, hmarked, hradix⟩ | ⟨hplain, hradix⟩
  · rw [hradix]
    constructor
    · rintro (⟨cs', hmarked', hdenotes⟩ | ⟨hplain, -⟩)
      · rwa [hmarked.unique hmarked']
      · exact absurd hmarked (hplain cs)
    · exact fun hdenotes => .inl ⟨cs, hmarked, hdenotes⟩
  · rw [hradix]
    constructor
    · rintro (⟨cs, hmarked, -⟩ | ⟨-, hdenotes⟩)
      · exact absurd hmarked (hplain cs)
      · exact hdenotes
    · exact fun hdenotes => .inr ⟨hplain, hdenotes⟩

private theorem readNumber_eq (text : String) :
    readNumber text = (read (radixOf text.toList).1 (radixOf text.toList).2).mapError fun fault =>
      ⟨text, fault⟩ := rfl

theorem readNumber_eq_ok_iff {text : String} {a : UInt32} :
    readNumber text = .ok a ↔ IsNumber text.toList a.toNat := by
  rw [isNumber_iff, ← read_eq_ok_iff, readNumber_eq]
  cases read (radixOf text.toList).1 (radixOf text.toList).2 <;> simp [Except.mapError]

private theorem readNumber_eq_error {text : String} (h : ∀ a : UInt32, ¬IsNumber text.toList a.toNat) :
    ∃ fault, readNumber text = .error ⟨text, fault⟩ := by
  rw [readNumber_eq]
  cases hread : read (radixOf text.toList).1 (radixOf text.toList).2 with
  | error fault => exact ⟨fault, rfl⟩
  | ok a =>
    rw [read_eq_ok_iff, ← isNumber_iff] at hread
    exact absurd hread (h a)

/-! ### Rendering -/

private theorem isDigit_digitChar {radix d : Nat} (hradix : radix ≤ 16) (hd : d < radix) :
    IsDigit radix (Nat.digitChar d) d := by
  refine ⟨hd, .inl ?_⟩
  have hd : d < 16 := hd.trans_le hradix
  interval_cases d <;> rfl

theorem IsDigit.toUpper {radix d : Nat} {c : Char} (h : IsDigit radix c d) : IsDigit radix c.toUpper d := by
  have hsmall : smallDigits.map Char.toUpper = capitalDigits := by decide
  have hcapital : capitalDigits.map Char.toUpper = capitalDigits := by decide
  refine ⟨h.1, .inr ?_⟩
  rcases h.2 with hc | hc
  · rw [← hsmall, List.getElem?_map, hc, Option.map_some]
  · rw [← hcapital, List.getElem?_map, hc, Option.map_some]

private theorem spells_singleton {radix d : Nat} {c : Char} (h : IsDigit radix c d) : Spells radix [c] d :=
  ⟨[d], .cons h .nil, Nat.ofDigits_singleton⟩

/-- One more digit behind a numeral. -/
private theorem Spells.concat {radix n d : Nat} {c : Char} {cs : List Char} (h : Spells radix cs n)
    (hd : IsDigit radix c d) :
    Spells radix (cs ++ [c]) (n * radix + d) := by
  obtain ⟨values, hvalues, rfl⟩ := h
  refine ⟨values ++ [d], List.rel_append hvalues (.cons hd .nil), ?_⟩
  rw [ofDigits_reverse, ofDigits_reverse, List.foldl_append]
  rfl

private theorem Spells.zero_cons {radix n : Nat} {cs : List Char} (hradix : 0 < radix)
    (h : Spells radix cs n) :
    Spells radix ('0' :: cs) n := by
  obtain ⟨values, hvalues, rfl⟩ := h
  refine ⟨0 :: values, .cons ⟨hradix, .inl rfl⟩ hvalues, ?_⟩
  rw [ofDigits_reverse, ofDigits_reverse, List.foldl_cons, Nat.zero_mul, Nat.zero_add]

private theorem Spells.zeros_append {radix n : Nat} {cs : List Char} (hradix : 0 < radix)
    (h : Spells radix cs n) (zeros : Nat) : Spells radix (List.replicate zeros '0' ++ cs) n := by
  induction zeros with
  | zero => exact h
  | succ zeros ih => exact ih.zero_cons hradix

private theorem Spells.capitalizes {radix n : Nat} {cs digits : List Char} (h : Spells radix digits n)
    (hcs : Capitalizes cs digits) : Spells radix cs n := by
  obtain ⟨values, hvalues, rfl⟩ := h
  refine ⟨values, ?_, rfl⟩
  induction hcs generalizing values with
  | nil => exact hvalues
  | cons hc _ ih =>
    obtain ⟨d, rest, hd, hrest, rfl⟩ := List.forall₂_cons_left_iff.1 hvalues
    refine .cons ?_ (ih rest hrest)
    rcases hc with rfl | rfl
    · exact hd
    · exact hd.toUpper

private theorem spells_toDigits {radix : Nat} (hradix : 1 < radix) (hle : radix ≤ 16) (n : Nat) :
    Spells radix (Nat.toDigits radix n) n := by
  induction n using Nat.strong_induction_on with
  | _ n ih =>
    rw [Nat.toDigits_eq_if hradix]
    split
    · rename_i hn
      exact spells_singleton (isDigit_digitChar hle hn)
    · rename_i hn
      have hquotient := ih (n / radix) (Nat.div_lt_self (by omega) hradix)
      have hlast := isDigit_digitChar hle (Nat.mod_lt n (by omega : 0 < radix))
      have hspells := hquotient.concat hlast
      rwa [Nat.div_add_mod'] at hspells

theorem spells_hexDigits (width n : Nat) : Spells 16 (hexDigits width n) n :=
  (spells_toDigits (by decide) (by decide) n).zeros_append (by decide) _

theorem spells_repr (zeros n : Nat) : Spells 10 (List.replicate zeros '0' ++ n.repr.toList) n := by
  rw [Nat.toList_repr]
  exact (spells_toDigits (by decide) (by decide) n).zeros_append (by decide) zeros

/-- The letter of the mark is no digit. -/
private theorem not_isDigit_mark {radix d : Nat} {c : Char} (hc : c = 'x' ∨ c = 'X') :
    ¬IsDigit radix c d := by
  rw [← digit?_eq_some_iff, digit?]
  rcases hc with rfl | rfl <;> simp [hexValue?]

private theorem not_marked_of_spells {radix n : Nat} {text : List Char} (h : Spells radix text n)
    (cs : List Char) :
    ¬Marked text cs := by
  obtain ⟨values, hvalues, -⟩ := h
  rintro (rfl | rfl)
  all_goals
    obtain ⟨_, _, -, hrest, -⟩ := List.forall₂_cons_left_iff.1 hvalues
    obtain ⟨d, _, hd, -, -⟩ := List.forall₂_cons_left_iff.1 hrest
  · exact not_isDigit_mark (.inl rfl) hd
  · exact not_isDigit_mark (.inr rfl) hd

private theorem readNumber_of_spells {text : String} {n : Nat} (hn : n < 2 ^ 32) (hne : text.toList ≠ [])
    (h : Spells 10 text.toList n) : readNumber text = .ok (UInt32.ofNat n) := by
  rw [readNumber_eq_ok_iff, UInt32.toNat_ofNat_of_lt' hn]
  exact .inr ⟨not_marked_of_spells h, text.toList, .inl rfl, hne, h⟩

private theorem readNumber_of_marked {text : String} {n : Nat} (hn : n < 2 ^ 32) {cs : List Char}
    (hmarked : Marked text.toList cs) (hne : cs ≠ []) (h : Spells 16 cs n) :
    readNumber text = .ok (UInt32.ofNat n) := by
  rw [readNumber_eq_ok_iff, UInt32.toNat_ofNat_of_lt' hn]
  exact .inl ⟨cs, hmarked, cs, .inl rfl, hne, h⟩

/-- A text is read exactly if it is a number that fits a word, and as this number.  The numbers that fit a
word are read from their decimal digits, and from their hexadecimal digits behind either mark, with letters of
either case and zeros in front of the digits. -/
theorem readNumber_reads :
    (∀ (text : String) (n : Nat),
      (∃ a : UInt32, a.toNat = n ∧ readNumber text = .ok a) ↔ n < 2 ^ 32 ∧ IsNumber text.toList n) ∧
    (∀ text : String, (¬∃ n < 2 ^ 32, IsNumber text.toList n) →
      ∃ fault, readNumber text = .error ⟨text, fault⟩) ∧
    ∀ n < 2 ^ 32,
      (∀ zeros, readNumber (String.ofList (List.replicate zeros '0') ++ n.repr) = .ok (UInt32.ofNat n)) ∧
      ∀ (mark : String) (width : Nat) (cs : List Char), mark = "0x" ∨ mark = "0X" →
        Capitalizes cs (hexDigits width n) →
          readNumber (mark ++ String.ofList cs) = .ok (UInt32.ofNat n) := by
  refine ⟨?_, ?_, ?_⟩
  · intro text n
    constructor
    · rintro ⟨a, rfl, hread⟩
      exact ⟨a.toNat_lt, readNumber_eq_ok_iff.1 hread⟩
    · rintro ⟨hn, hnumber⟩
      have ha : (UInt32.ofNat n).toNat = n := UInt32.toNat_ofNat_of_lt' hn
      exact ⟨UInt32.ofNat n, ha, readNumber_eq_ok_iff.2 (ha.symm ▸ hnumber)⟩
  · intro text hnone
    refine readNumber_eq_error fun a hnumber => ?_
    exact hnone ⟨a.toNat, a.toNat_lt, hnumber⟩
  · intro n hn
    constructor
    · intro zeros
      refine readNumber_of_spells hn ?_ ?_
      · rw [String.toList_append, Nat.toList_repr]
        exact List.append_ne_nil_of_right_ne_nil _ Nat.toDigits_ne_nil
      · rw [String.toList_append, String.toList_ofList]
        exact spells_repr zeros n
    · intro mark width cs hmark hcs
      have hmarked : Marked (mark ++ String.ofList cs).toList cs := by
        rw [String.toList_append, String.toList_ofList]
        rcases hmark with rfl | rfl
        · exact .inl rfl
        · exact .inr rfl
      refine readNumber_of_marked hn hmarked ?_ ((spells_hexDigits width n).capitalizes hcs)
      rintro rfl
      have hdigits : hexDigits width n = [] := List.forall₂_nil_left_iff.1 hcs
      exact absurd (List.append_eq_nil_iff.1 hdigits).2 Nat.toDigits_ne_nil

/-- The last number that fits a word, decimal behind a sign, and hexadecimal in letters of both cases. -/
theorem readNumber_reads_largest :
    (∃ a : UInt32, a.toNat = 4294967295 ∧ readNumber "+4294967295" = .ok a) ∧
      readNumber ("0X" ++ String.ofList ['0', '0', 'f', 'F', 'F', 'f', 'f', 'F', 'F', 'F']) =
        .ok 4294967295 := by
  obtain ⟨hreads, -, hrendered⟩ := readNumber_reads
  constructor
  · refine (hreads "+4294967295" 4294967295).2 ⟨by decide, .inr ⟨?_, ?_⟩⟩
    · rintro cs (h | h) <;> exact absurd (List.head_eq_of_cons_eq h) (by decide)
    · exact ⟨_, .inr rfl, List.cons_ne_nil _ _, spells_repr 0 4294967295⟩
  · have hcapitals :
        Capitalizes ['0', '0', 'f', 'F', 'F', 'f', 'f', 'F', 'F', 'F'] (hexDigits 10 4294967295) := by
      unfold Capitalizes
      decide
    exact (hrendered 4294967295 (by decide)).2 "0X" 10 _ (.inr rfl) hcapitals

end BootImage.Numeral
