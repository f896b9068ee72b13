/-!
# Hexadecimal text

Addresses and sizes are printed in upper-case hexadecimal behind `0x`, addresses and bytes filled up with
zeros; digests in lower case with nothing before them.
-/

namespace BootImage

/-- The hexadecimal digits of `n` in lower case, filled up with zeros to at least `width` of them. -/
def hexDigits (width n : Nat) : List Char :=
  let digits := Nat.toDigits 16 n
  List.replicate (width - digits.length) '0' ++ digits

def hexNumber (width n : Nat) : String := "0x" ++ String.ofList ((hexDigits width n).map Char.toUpper)

def hexSize (n : Nat) : String := hexNumber 1 n

def hexByte (b : UInt8) : String := hexNumber 2 b.toNat

def hexAddress (a : UInt32) : String := hexNumber 8 a.toNat

end BootImage
