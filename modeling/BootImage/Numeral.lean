/-!
# Numerals of 32-bit words

A numeral is an optional `+` and at least one digit of its radix, in either case.  `Numeral.read` takes a
numeral of a known radix, `Numeral.readNumber` one whose radix is told by a leading `0x` or `0X`.  The digits
are taken from the left, and the first character that is no digit, or that carries the value past a word,
decides the fault.
-/

namespace BootImage.Numeral

inductive Fault
  | empty
  | invalidDigit
  | tooLarge
  deriving DecidableEq, Repr

def Fault.message : Fault → String
  | .empty => "cannot parse integer from empty string"
  | .invalidDigit => "invalid digit found in string"
  | .tooLarge => "number too large to fit in target type"

def hexValue? (c : Char) : Option Nat :=
  if '0' ≤ c ∧ c ≤ '9' then some (c.toNat - '0'.toNat)
  else if 'a' ≤ c ∧ c ≤ 'f' then some (c.toNat - 'a'.toNat + 10)
  else if 'A' ≤ c ∧ c ≤ 'F' then some (c.toNat - 'A'.toNat + 10)
  else none

def digit? (radix : Nat) (c : Char) : Option Nat := (hexValue? c).filter (· < radix)

/-- Extends `value` by further digits, as long as it stays below `2 ^ 32`. -/
def extend (radix value : Nat) : List Char → Except Fault Nat
  | [] => .ok value
  | c :: cs =>
    match digit? radix c with
    | none => .error .invalidDigit
    | some d => if value * radix + d < 2 ^ 32 then extend radix (value * radix + d) cs else .error .tooLarge

/-- Reads digits behind an optional `+`. A sign alone counts as an invalid digit. -/
def read (radix : Nat) : List Char → Except Fault UInt32
  | [] => .error .empty
  | ['+'] => .error .invalidDigit
  | '+' :: cs => UInt32.ofNat <$> extend radix 0 cs
  | cs => UInt32.ofNat <$> extend radix 0 cs

structure Malformed where
  text : String
  fault : Fault
  deriving DecidableEq, Repr

def Malformed.message (m : Malformed) : String := s!"Invalid number '{m.text}': {m.fault.message}"

/-- The radix that a number's first characters announce, and the characters after the announcement. -/
def radixOf : List Char → Nat × List Char
  | '0' :: 'x' :: cs => (16, cs)
  | '0' :: 'X' :: cs => (16, cs)
  | cs => (10, cs)

/-- Reads a number: hexadecimal behind `0x` or `0X`, decimal otherwise. -/
def readNumber (text : String) : Except Malformed UInt32 :=
  let (radix, cs) := radixOf text.toList
  (read radix cs).mapError fun fault => ⟨text, fault⟩

end BootImage.Numeral
