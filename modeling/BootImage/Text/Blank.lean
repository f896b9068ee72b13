/-!
# White space

The white space of a symbol listing is that of the Unicode property `White_Space`.  `words` are the longest
runs of other characters.
-/

namespace BootImage

/-- The ranges of code points with the property `White_Space`. -/
def blankRanges : List (Nat × Nat) :=
  [(0x9, 0xD), (0x20, 0x20), (0x85, 0x85), (0xA0, 0xA0), (0x1680, 0x1680), (0x2000, 0x200A), (0x2028, 0x2029),
    (0x202F, 0x202F), (0x205F, 0x205F), (0x3000, 0x3000)]

def isBlank (c : Char) : Bool := blankRanges.any fun (low, high) => low ≤ c.toNat && c.toNat ≤ high

def words (cs : List Char) : List (List Char) := (cs.splitOnP isBlank).filter fun w => !w.isEmpty

end BootImage
