import Mathlib
import BootImage.Numeral

/-!
# Numerals and the numbers they stand for

A numeral is an optional `+` and one or more digits of its radix, in either case, and stands for the number
with these digits.  Reading takes a numeral from the left and gives up as soon as the value so far does not
fit a word.

* (digits) A character has a value exactly if it stands at this place among the digits:
  `hexValue?_eq_some_iff`.
* (values) The value only grows with further digits, so it fits a word on the way if it does at the end:
  `extend_eq_ok_iff`.
* (numerals) Hence exactly the numerals of words are read, each as the number it stands for: `read_eq_ok_iff`.
-/

namespace BootImage.Numeral

def smallDigits : List Char :=
  ['0', '1', '2', '3', '4', '5', '6', '7', '8', '9', 'a', 'b', 'c', 'd', 'e', 'f']

def capitalDigits : List Char :=
  ['0', '1', '2', '3', '4', '5', '6', '7', '8', '9', 'A', 'B', 'C', 'D', 'E', 'F']

/-- The character is the radix's digit of this value, in either case. -/
def IsDigit (radix : Nat) (c : Char) (value : Nat) : Prop :=
  value < radix ∧ (smallDigits[value]? = some c ∨ capitalDigits[value]? = some c)

/-- The characters are the digits of the number, the most significant one first. -/
def Spells (radix : Nat) (cs : List Char) (n : Nat) : Prop :=
  ∃ values, List.Forall₂ (IsDigit radix) cs values ∧ Nat.ofDigits radix values.reverse = n

/-- The text is an optional `+` and one or more digits, which are those of the number. -/
def Denotes (radix : Nat) (text : List Char) (n : Nat) : Prop :=
  ∃ cs, (text = cs ∨ text = '+' :: cs) ∧ cs ≠ [] ∧ Spells radix cs n

/-! ### Digits -/

private theorem eq_ofNat_of_toNat_eq {c : Char} {n : Nat} (h : c.toNat = n) : c = Char.ofNat n := by
  rw [← h, Char.ofNat_toNat]

theorem hexValue?_eq_some_iff {c : Char} {d : Nat} :
    hexValue? c = some d ↔ smallDigits[d]? = some c ∨ capitalDigits[d]? = some c := by
  constructor
  · intro h
    have hplace : d < 10 ∧ c.toNat = 48 + d ∨ 10 ≤ d ∧ d < 16 ∧ (c.toNat = 87 + d ∨ c.toNat = 55 + d) := by
      simp only [hexValue?, Char.le_def, UInt32.le_iff_toNat_le, Char.toNat_val, Char.reduceToNat] at h
      grind
    rcases hplace with ⟨hd, hc⟩ | ⟨hlow, hhigh, hc | hc⟩
    all_goals
      obtain rfl := eq_ofNat_of_toNat_eq hc
      interval_cases d <;> decide
  · intro h
    have hd : d < 16 := by
      by_contra hlarge
      have hsmall : smallDigits[d]? = none := List.getElem?_eq_none (Nat.not_lt.1 hlarge)
      have hcapital : capitalDigits[d]? = none := List.getElem?_eq_none (Nat.not_lt.1 hlarge)
      rw [hsmall, hcapital] at h
      simp at h
    interval_cases d <;> rcases h with h | h <;> cases h <;> decide

theorem digit?_eq_some_iff {radix : Nat} {c : Char} {d : Nat} :
    digit? radix c = some d ↔ IsDigit radix c d := by
  rw [digit?, Option.filter_eq_some_iff, hexValue?_eq_some_iff, decide_eq_true_iff, IsDigit, and_comm]

theorem IsDigit.unique {radix : Nat} {c : Char} {d d' : Nat} (h : IsDigit radix c d)
    (h' : IsDigit radix c d') :
    d = d' := by
  rw [← digit?_eq_some_iff] at h h'
  exact Option.some.inj (h.symm.trans h')

/-- A sign is no digit. -/
private theorem not_isDigit_plus (radix d : Nat) : ¬IsDigit radix '+' d := by
  rw [← digit?_eq_some_iff, digit?]
  simp [hexValue?]

/-! ### Values -/

theorem ofDigits_reverse (radix : Nat) (values : List Nat) :
    Nat.ofDigits radix values.reverse = values.foldl (fun n d => n * radix + d) 0 := by
  rw [Nat.ofDigits_eq_foldr, List.foldr_reverse]
  congr 1
  funext n d
  rw [Nat.cast_id, Nat.add_comm, Nat.mul_comm]

/-- Further digits do not make the value smaller. -/
private theorem le_foldl {radix : Nat} (hradix : 0 < radix) (value : Nat) (values : List Nat) :
    value ≤ values.foldl (fun n d => n * radix + d) value := by
  induction values generalizing value with
  | nil => exact Nat.le_refl value
  | cons d values ih =>
    have hstep : value ≤ value * radix + d := Nat.le_add_right_of_le (Nat.le_mul_of_pos_right value hradix)
    exact hstep.trans (ih _)

/-- The first digit goes into the value, and the others are read as before. -/
private theorem exists_values_cons_iff {radix value d n : Nat} {c : Char} {cs : List Char}
    (hd : IsDigit radix c d) :
    (∃ values, List.Forall₂ (IsDigit radix) (c :: cs) values ∧
      values.foldl (fun n d => n * radix + d) value = n) ↔
        ∃ values, List.Forall₂ (IsDigit radix) cs values ∧
          values.foldl (fun n d => n * radix + d) (value * radix + d) = n := by
  constructor
  · rintro ⟨values, hvalues, hfold⟩
    obtain ⟨d', rest, hd', hrest, rfl⟩ := List.forall₂_cons_left_iff.1 hvalues
    rw [hd'.unique hd, List.foldl_cons] at hfold
    exact ⟨rest, hrest, hfold⟩
  · rintro ⟨rest, hrest, hfold⟩
    exact ⟨d :: rest, .cons hd hrest, hfold⟩

private theorem extend_nil (radix value : Nat) : extend radix value [] = .ok value := rfl

private theorem extend_cons (radix value : Nat) (c : Char) (cs : List Char) :
    extend radix value (c :: cs) = (digit? radix c).elim (.error .invalidDigit) fun d =>
      if value * radix + d < 2 ^ 32 then extend radix (value * radix + d) cs else .error .tooLarge := by
  conv => lhs; whnf
  cases digit? radix c <;> rfl

theorem extend_eq_ok_iff {radix value n : Nat} (hvalue : value < 2 ^ 32) {cs : List Char} :
    extend radix value cs = .ok n ↔
      n < 2 ^ 32 ∧ ∃ values, List.Forall₂ (IsDigit radix) cs values ∧
        values.foldl (fun n d => n * radix + d) value = n := by
  induction cs generalizing value with
  | nil =>
    simp only [extend_nil, Except.ok.injEq, List.forall₂_nil_left_iff, exists_eq_left, List.foldl_nil]
    exact ⟨fun h => ⟨h ▸ hvalue, h⟩, fun h => h.2⟩
  | cons c cs ih =>
    rw [extend_cons]
    cases hdigit : digit? radix c with
    | none =>
      simp only [Option.elim_none, reduceCtorEq, false_iff]
      rintro ⟨-, values, hvalues, -⟩
      obtain ⟨d, _, hd, -, -⟩ := List.forall₂_cons_left_iff.1 hvalues
      rw [← digit?_eq_some_iff, hdigit] at hd
      contradiction
    | some d =>
      have hd := digit?_eq_some_iff.1 hdigit
      rw [exists_values_cons_iff hd, Option.elim_some]
      by_cases hfits : value * radix + d < 2 ^ 32
      · simp only [hfits, if_true, ih hfits]
      -- further digits do not make the value smaller
      · simp only [hfits, if_false, reduceCtorEq, false_iff]
        rintro ⟨hn, rest, -, rfl⟩
        have hradix : 0 < radix := Nat.zero_lt_of_lt hd.1
        have hle := le_foldl hradix (value * radix + d) rest
        omega

/-! ### Numerals -/

private theorem map_extend_eq_ok_iff {radix : Nat} {cs : List Char} {a : UInt32} :
    UInt32.ofNat <$> extend radix 0 cs = .ok a ↔ Spells radix cs a.toNat := by
  simp only [Spells, ofDigits_reverse]
  constructor
  · intro h
    cases hextend : extend radix 0 cs with
    | error e =>
      rw [hextend] at h
      contradiction
    | ok n =>
      rw [hextend] at h
      obtain ⟨hn, hvalues⟩ := (extend_eq_ok_iff (by decide)).1 hextend
      obtain rfl : UInt32.ofNat n = a := Except.ok.inj h
      rwa [UInt32.toNat_ofNat_of_lt' hn]
  · intro h
    have hextend : extend radix 0 cs = .ok a.toNat := (extend_eq_ok_iff (by decide)).2 ⟨a.toNat_lt, h⟩
    rw [hextend]
    exact congrArg Except.ok UInt32.ofNat_toNat

private theorem not_spells_plus (radix : Nat) (cs : List Char) (n : Nat) : ¬Spells radix ('+' :: cs) n := by
  rintro ⟨values, hvalues, -⟩
  obtain ⟨d, _, hd, -, -⟩ := List.forall₂_cons_left_iff.1 hvalues
  exact not_isDigit_plus radix d hd

private theorem denotes_plus_iff {radix : Nat} {cs : List Char} {n : Nat} :
    Denotes radix ('+' :: cs) n ↔ cs ≠ [] ∧ Spells radix cs n := by
  constructor
  · rintro ⟨digits, rfl | h, hne, hspells⟩
    · exact absurd hspells (not_spells_plus radix cs n)
    · obtain rfl := List.tail_eq_of_cons_eq h
      exact ⟨hne, hspells⟩
  · rintro ⟨hne, hspells⟩
    exact ⟨cs, .inr rfl, hne, hspells⟩

private theorem denotes_iff_spells {radix : Nat} {text : List Char} (hsign : ∀ cs, text ≠ '+' :: cs)
    {n : Nat} :
    Denotes radix text n ↔ text ≠ [] ∧ Spells radix text n := by
  constructor
  · rintro ⟨cs, rfl | h, hne, hspells⟩
    · exact ⟨hne, hspells⟩
    · exact absurd h (hsign cs)
  · rintro ⟨hne, hspells⟩
    exact ⟨text, .inl rfl, hne, hspells⟩

/-- Exactly the numerals of words are read. -/
theorem read_eq_ok_iff {radix : Nat} {text : List Char} {a : UInt32} :
    read radix text = .ok a ↔ Denotes radix text a.toNat := by
  unfold read
  split
  · rw [denotes_iff_spells (by simp)]
    simp
  · rw [denotes_plus_iff]
    simp
  · rename_i cs hne
    rw [map_extend_eq_ok_iff, denotes_plus_iff]
    exact (and_iff_right hne).symm
  · rename_i hempty _ hsign
    rw [map_extend_eq_ok_iff, denotes_iff_spells hsign]
    exact (and_iff_right hempty).symm

end BootImage.Numeral
