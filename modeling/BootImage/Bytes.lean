/-!
# Bytes and little-endian words

A file or buffer is the list of its bytes.  A 32-bit word is stored as four bytes, least significant first;
`word_wordBytes` and `wordBytes_word` say that storing and loading undo each other.
-/

namespace BootImage

abbrev Bytes := List UInt8

def xorSum (start : UInt8) (bytes : Bytes) : UInt8 := bytes.foldl (· ^^^ ·) start

@[simp] theorem xorSum_nil (start : UInt8) : xorSum start [] = start := rfl

theorem xorSum_cons (start b : UInt8) (bytes : Bytes) :
    xorSum start (b :: bytes) = xorSum (start ^^^ b) bytes := rfl

theorem xorSum_append (start : UInt8) (a b : Bytes) : xorSum start (a ++ b) = xorSum (xorSum start a) b :=
  List.foldl_append

theorem xorSum_replicate_zero (start : UInt8) (n : Nat) : xorSum start (List.replicate n 0) = start := by
  induction n with
  | zero => rfl
  | succ n ih => rw [List.replicate_succ, xorSum_cons, UInt8.xor_zero, ih]

/-- Cuts bytes to a length, or fills them up to it with zeros. -/
def resize (bytes : Bytes) (length : Nat) : Bytes :=
  bytes.take length ++ List.replicate (length - bytes.length) 0

theorem resize_of_le {bytes : Bytes} {length : Nat} (h : bytes.length ≤ length) :
    resize bytes length = bytes ++ List.replicate (length - bytes.length) 0 := by
  rw [resize, List.take_of_length_le h]

def wordBytes (w : UInt32) : Bytes :=
  [w.toUInt8, UInt8.ofNat (w.toNat / 256), UInt8.ofNat (w.toNat / 65536), UInt8.ofNat (w.toNat / 16777216)]

def word (b₀ b₁ b₂ b₃ : UInt8) : UInt32 :=
  UInt32.ofNat (b₀.toNat + 256 * (b₁.toNat + 256 * (b₂.toNat + 256 * b₃.toNat)))

@[simp] theorem length_wordBytes (w : UInt32) : (wordBytes w).length = 4 := rfl

theorem word_wordBytes (w : UInt32) :
    word w.toUInt8 (UInt8.ofNat (w.toNat / 256)) (UInt8.ofNat (w.toNat / 65536))
      (UInt8.ofNat (w.toNat / 16777216)) = w := by
  have h : w.toNat < 2 ^ 32 := w.toNat_lt
  apply UInt32.toNat_inj.mp
  simp only [word, UInt32.toNat_ofNat', UInt32.toNat_toUInt8, UInt8.toNat_ofNat']
  omega

theorem wordBytes_word (b₀ b₁ b₂ b₃ : UInt8) : wordBytes (word b₀ b₁ b₂ b₃) = [b₀, b₁, b₂, b₃] := by
  have h₀ := b₀.toNat_lt
  have h₁ := b₁.toNat_lt
  have h₂ := b₂.toNat_lt
  have h₃ := b₃.toNat_lt
  simp only [wordBytes, List.cons.injEq, and_true, ← UInt8.toNat_inj, word, UInt32.toNat_ofNat',
    UInt32.toNat_toUInt8, UInt8.toNat_ofNat']
  omega

end BootImage
