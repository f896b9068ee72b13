import BootImage.Arithmetic

/-!
# Rounding up to an alignment

For an alignment that is a power of two, `roundUp value alignment` is the least multiple of the alignment that
is not below `value`.  The alignment is added before one is taken away, so the sum can leave a word where the
result would not.
-/

namespace BootImage

def roundUp (a : Arithmetic) (value alignment : UInt32) : Option UInt32 := do
  let sum ← a.add value alignment
  let last ← a.sub sum 1
  let low ← a.sub alignment 1
  return last &&& ~~~low

end BootImage
