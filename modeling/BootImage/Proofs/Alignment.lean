import Mathlib
import BootImage.Image.Builder

/-!
# Padded lengths

`roundUp` clears low bits; `roundUp_eq` says that for a power of two this gives the least multiple of the
alignment that is not below the value, and for which value the sum under the mask overflows.  From it come the
three cases of `paddedLength` (`paddedLength_eq`): a size too long to be rounded up within a word is refused,
the longest other one overflows, and the rest get their least multiple.  The padding behind the last segment
is the least that puts the checksum at the end of a block (`add_tailPadding`, `isLeast_tailPadding`).
-/

namespace BootImage

namespace Arithmetic

variable {a : Arithmetic}

@[simp] private theorem result_wrapping {α : Type} (overflows : Bool) (value : α) :
    wrapping.result overflows value = some value := by
  simp [result]

private theorem result_of_not {α : Type} {overflows : Bool} (h : overflows = false) (value : α) :
    a.result overflows value = some value := by
  simp [result, h]

theorem add_eq (a : Arithmetic) (x y : UInt32) :
    a.add x y = if a = .checked ∧ 2 ^ 32 ≤ x.toNat + y.toNat then none else some (x + y) := by
  simp [add, result, BitVec.uaddOverflow]

private theorem sub_of_le {x y : UInt32} (h : y.toNat ≤ x.toNat) : a.sub x y = some (x - y) := by
  apply result_of_not
  simpa [BitVec.usubOverflow] using h

theorem addSize_of_lt {x y : UInt64} (h : x.toNat + y.toNat < 2 ^ 64) : a.addSize x y = some (x + y) := by
  apply result_of_not
  simpa [BitVec.uaddOverflow] using h

theorem subSize_of_le {x y : UInt64} (h : y.toNat ≤ x.toNat) : a.subSize x y = some (x - y) := by
  apply result_of_not
  simpa [BitVec.usubOverflow] using h

end Arithmetic

/-- The least multiple of `alignment` that is not below `size`. -/
def leastMultiple (alignment size : Nat) : Nat := (size + alignment - 1) / alignment * alignment

private theorem dvd_leastMultiple (alignment size : Nat) : alignment ∣ leastMultiple alignment size :=
  Nat.dvd_mul_left _ _

private theorem le_leastMultiple {alignment : Nat} (h : 0 < alignment) (size : Nat) :
    size ≤ leastMultiple alignment size := by
  have hdiv := Nat.div_add_mod' (size + alignment - 1) alignment
  have hmod := Nat.mod_lt (size + alignment - 1) h
  unfold leastMultiple
  omega

theorem leastMultiple_lt {alignment : Nat} (h : 0 < alignment) (size : Nat) :
    leastMultiple alignment size < size + alignment := by
  have hdiv := Nat.div_mul_le_self (size + alignment - 1) alignment
  unfold leastMultiple
  omega

theorem isLeast_leastMultiple {alignment : Nat} (h : 0 < alignment) (size : Nat) :
    IsLeast {n | alignment ∣ n ∧ size ≤ n} (leastMultiple alignment size) := by
  refine ⟨⟨dvd_leastMultiple _ _, le_leastMultiple h size⟩, ?_⟩
  rintro n ⟨⟨q, rfl⟩, hn⟩
  have hlt := leastMultiple_lt h size
  unfold leastMultiple at hlt ⊢
  -- two multiples of the alignment that are less than the alignment apart are in order
  have hq : (size + alignment - 1) / alignment < q + 1 := by
    apply Nat.lt_of_mul_lt_mul_right (a := alignment)
    rw [Nat.add_mul, Nat.one_mul, Nat.mul_comm q]
    omega
  rw [Nat.mul_comm alignment q]
  exact Nat.mul_le_mul_right _ (Nat.le_of_lt_succ hq)

/-- Clearing the low `k` bits of a number below `2 ^ n`. -/
private theorem and_highBits {x k n : Nat} (hx : x < 2 ^ n) (hk : k < n) :
    x &&& (2 ^ n - 1 - (2 ^ k - 1)) = x / 2 ^ k * 2 ^ k := by
  have hkn : 2 ^ k < 2 ^ n := Nat.pow_lt_pow_right (by omega) hk
  apply Nat.eq_of_testBit_eq
  intro i
  rw [show 2 ^ n - 1 - (2 ^ k - 1) = 2 ^ n - ((2 ^ k - 1) + 1) by omega, Nat.testBit_and,
    Nat.testBit_two_pow_sub_succ (by omega), Nat.testBit_two_pow_sub_one, Nat.testBit_mul_two_pow,
    Nat.testBit_div_two_pow]
  by_cases hi : k ≤ i
  · rw [Nat.sub_add_cancel hi]
    by_cases hin : i < n
    · simp [hi, hin, Nat.not_lt_of_le hi]
    · rw [Nat.testBit_lt_two_pow (Nat.lt_of_lt_of_le hx (Nat.pow_le_pow_right (by omega) (by omega)))]
      simp
  · simp [hi, Nat.lt_of_not_le hi]

/-- Rounding up to a power of two, as long as the next block still starts within a word or right behind it.
Of these values, only the last makes a sum that is no word; if the sum wraps around, the result is right all
the same. -/
theorem roundUp_eq (a : Arithmetic) {value alignment : UInt32} {k : Nat} (ha : alignment.toNat = 2 ^ k)
    (hk : k < 32) (h : value.toNat + 2 ^ k ≤ 2 ^ 32) :
    roundUp a value alignment =
      if a = .checked ∧ value.toNat + 2 ^ k = 2 ^ 32 then none
      else some (UInt32.ofNat (leastMultiple (2 ^ k) value.toNat)) := by
  have hpos : 0 < 2 ^ k := Nat.two_pow_pos k
  have hlow : (1 : UInt32).toNat ≤ alignment.toNat := by
    rw [ha]
    exact hpos
  have hadd := a.add_eq value alignment
  rw [ha] at hadd
  by_cases hstop : a = .checked ∧ value.toNat + 2 ^ k = 2 ^ 32
  · rw [if_pos hstop, roundUp, hadd, if_pos ⟨hstop.1, hstop.2.ge⟩]
    rfl
  · -- where the sum wraps around, taking one away wraps it back
    have hsum : (value + alignment - 1).toNat = value.toNat + 2 ^ k - 1 := by
      rw [UInt32.toNat_sub, UInt32.toNat_add, ha, show (1 : UInt32).toNat = 1 from rfl]
      omega
    have hlast : a.sub (value + alignment) 1 = some (value + alignment - 1) := by
      cases a with
      | wrapping => exact Arithmetic.result_wrapping _ _
      | checked =>
        have hlt : value.toNat + 2 ^ k < 2 ^ 32 := Nat.lt_of_le_of_ne h fun heq => hstop ⟨rfl, heq⟩
        apply Arithmetic.sub_of_le
        rw [UInt32.toNat_add, ha, Nat.mod_eq_of_lt hlt]
        exact Nat.le_add_left_of_le hpos
    have hone : (alignment - 1).toNat = 2 ^ k - 1 := by
      rw [UInt32.toNat_sub_of_le _ _ hlow, ha]
      rfl
    have hmask : (value + alignment - 1) &&& ~~~(alignment - 1) =
        UInt32.ofNat (leastMultiple (2 ^ k) value.toNat) := by
      rw [← UInt32.toNat_inj, UInt32.toNat_and, UInt32.toNat_not, hone, hsum,
        UInt32.toNat_ofNat_of_lt' (Nat.lt_of_lt_of_le (leastMultiple_lt hpos _) h)]
      exact and_highBits (by omega) hk
    rw [if_neg hstop, ← hmask, roundUp, hadd, if_neg fun hover => hstop ⟨hover.1, Nat.le_antisymm h hover.2⟩]
    simp [hlast, Arithmetic.sub_of_le hlow]

/-! ### The padded length of a section -/

/-- The exponents of the two alignments. -/
private theorem toNat_sectionAlignment (checksummed : Bool) :
    (sectionAlignment checksummed).toNat = 2 ^ (if checksummed then 2 else 4) := by
  cases checksummed <;> rfl

theorem toNat_sectionAlignment_pos (checksummed : Bool) : 0 < (sectionAlignment checksummed).toNat := by
  cases checksummed <;> decide

theorem toNat_sectionAlignment_le (checksummed : Bool) : (sectionAlignment checksummed).toNat ≤ 16 := by
  cases checksummed <;> decide

/-- The bound on a section's length is computed without overflow. -/
private theorem sub_sectionAlignment (a : Arithmetic) (checksummed : Bool) :
    a.sub (sectionAlignment checksummed) 1 = some (sectionAlignment checksummed - 1) ∧
      a.sub 0xFFFFFFFF (sectionAlignment checksummed - 1) =
        some (UInt32.ofNat (2 ^ 32 - (sectionAlignment checksummed).toNat)) := by
  cases a <;> cases checksummed <;> decide

private theorem toNat_ofNat_of_le {checksummed : Bool} {size : Nat}
    (h : size ≤ 2 ^ 32 - (sectionAlignment checksummed).toNat) : (UInt32.ofNat size).toNat = size := by
  have hpos := toNat_sectionAlignment_pos checksummed
  apply UInt32.toNat_ofNat_of_lt'
  simp only [UInt32.size]
  omega

/-- Of the sizes that are not refused, the largest leaves no room in a word for the alignment. -/
theorem roundUp_sectionAlignment (a : Arithmetic) {checksummed : Bool} {size : Nat}
    (h : size ≤ 2 ^ 32 - (sectionAlignment checksummed).toNat) :
    roundUp a (UInt32.ofNat size) (sectionAlignment checksummed) =
      if a = .checked ∧ size = 2 ^ 32 - (sectionAlignment checksummed).toNat then none
      else some (UInt32.ofNat (leastMultiple (sectionAlignment checksummed).toNat size)) := by
  have hle := toNat_sectionAlignment_le checksummed
  have ha := toNat_sectionAlignment checksummed
  have hsize := toNat_ofNat_of_le h
  have hroom : (UInt32.ofNat size).toNat + 2 ^ (if checksummed then 2 else 4) ≤ 2 ^ 32 := by
    rw [hsize, ← ha]
    omega
  have hround := roundUp_eq a ha (by split <;> decide) hroom
  have hlast : size + (sectionAlignment checksummed).toNat = 2 ^ 32 ↔
      size = 2 ^ 32 - (sectionAlignment checksummed).toNat := by
    omega
  rw [hsize, ← ha] at hround
  simp only [hround, hlast]

theorem paddedLength_eq (a : Arithmetic) (name : String) (checksummed : Bool) (size : Nat) :
    paddedLength a name checksummed size =
      if 2 ^ 32 - (sectionAlignment checksummed).toNat < size then .error (.oversize ⟨name, size⟩)
      else if a = .checked ∧ size = 2 ^ 32 - (sectionAlignment checksummed).toNat then .error .overflow
      else .ok (UInt32.ofNat (leastMultiple (sectionAlignment checksummed).toNat size)) := by
  obtain ⟨hlow, hlargest⟩ := sub_sectionAlignment a checksummed
  have hbound := toNat_ofNat_of_le (Nat.le_refl (2 ^ 32 - (sectionAlignment checksummed).toNat))
  simp only [paddedLength, hlow, hlargest, orStop_some, bind, Except.bind, hbound]
  by_cases hover : 2 ^ 32 - (sectionAlignment checksummed).toNat < size
  · rw [if_pos hover, if_neg (Nat.not_le_of_lt hover)]
  · have hle := Nat.le_of_not_lt hover
    rw [if_neg hover, if_pos hle, roundUp_sectionAlignment a hle, apply_ite orStop, orStop_some, orStop_none]

/-! ### The padding behind the last segment -/

theorem add_tailPadding (size : Nat) : size + tailPadding size = size / 16 * 16 + 15 := by
  unfold tailPadding blockSize
  omega

theorem isLeast_tailPadding (size : Nat) : IsLeast {n | (size + n) % 16 = 15} (tailPadding size) := by
  have hadd := add_tailPadding size
  refine ⟨?_, ?_⟩
  · show (size + tailPadding size) % 16 = 15
    omega
  · intro n hn
    have hn : (size + n) % 16 = 15 := hn
    omega

/-- The last offset of the block that an offset lies in. -/
theorem or_fifteen (offset : Nat) : offset ||| 15 = offset / 16 * 16 + 15 := by
  have hlow : ∀ r < 16, r ||| 15 = 15 := by decide
  have hdiv : 2 ^ 4 * (offset / 16) + offset % 16 = offset := by omega
  have hmod : offset % 16 < 2 ^ 4 := by omega
  calc offset ||| 15 = (2 ^ 4 * (offset / 16) + offset % 16) ||| 15 := by rw [hdiv]
    _ = 2 ^ 4 * (offset / 16) ||| (offset % 16 ||| 15) := by
      rw [Nat.two_pow_add_eq_or_of_lt hmod, Nat.or_assoc]
    _ = 2 ^ 4 * (offset / 16) + 15 := by rw [hlow _ hmod, Nat.two_pow_add_eq_or_of_lt (by omega)]
    _ = offset / 16 * 16 + 15 := by omega

end BootImage
