import BootImage.Bytes
import BootImage.Text.Hex

/-!
# SHA-1

The digest of FIPS 180-4.  A message is padded to whole blocks of 64 bytes; each block is stretched to a
schedule of eighty words, which are mixed into the five words of the state one after the other.
-/

namespace BootImage.Sha1

structure State where
  a : UInt32
  b : UInt32
  c : UInt32
  d : UInt32
  e : UInt32
  deriving DecidableEq, Repr

def start : State := ⟨0x67452301, 0xEFCDAB89, 0x98BADCFE, 0x10325476, 0xC3D2E1F0⟩

def rotate (w count : UInt32) : UInt32 := (w <<< count) ||| (w >>> (32 - count))

def lengthBytes (size : Nat) : Bytes := (List.range 8).map fun i => UInt8.ofNat ((8 * size) >>> (8 * (7 - i)))

/-- A single one bit, then the fewest zeros that leave room for the length at the end of a block, and the
length. -/
def pad (message : Bytes) : Bytes :=
  message ++ 0x80 :: List.replicate ((119 - message.length % 64) % 64) 0 ++ lengthBytes message.length

def blocks : Nat → Bytes → List Bytes
  | 0, _ => []
  | count + 1, bytes => bytes.take 64 :: blocks count (bytes.drop 64)

def blockWords : Bytes → List UInt32
  | b₀ :: b₁ :: b₂ :: b₃ :: rest => word b₃ b₂ b₁ b₀ :: blockWords rest
  | _ => []

/-- Puts `count` further words before those of a schedule, which is kept in reverse. -/
def stretch : Nat → List UInt32 → List UInt32
  | 0, ws => ws
  | count + 1, ws =>
    stretch count (rotate (ws.getD 2 0 ^^^ ws.getD 7 0 ^^^ ws.getD 13 0 ^^^ ws.getD 15 0) 1 :: ws)

def schedule (block : Bytes) : List UInt32 := (stretch 64 (blockWords block).reverse).reverse

/-- The function and the constant of a round. -/
def mixing (round : Nat) (b c d : UInt32) : UInt32 × UInt32 :=
  if round < 20 then ((b &&& c) ||| (~~~b &&& d), 0x5A827999)
  else if round < 40 then (b ^^^ c ^^^ d, 0x6ED9EBA1)
  else if round < 60 then ((b &&& c) ||| (b &&& d) ||| (c &&& d), 0x8F1BBCDC)
  else (b ^^^ c ^^^ d, 0xCA62C1D6)

def round (s : State) (step : UInt32 × Nat) : State :=
  let (f, k) := mixing step.2 s.b s.c s.d
  ⟨rotate s.a 5 + f + s.e + k + step.1, s.a, rotate s.b 30, s.c, s.d⟩

def compress (s : State) (block : Bytes) : State :=
  let mixed := (schedule block).zipIdx.foldl round s
  ⟨s.a + mixed.a, s.b + mixed.b, s.c + mixed.c, s.d + mixed.d, s.e + mixed.e⟩

def digest (message : Bytes) : State :=
  let padded := pad message
  (blocks (padded.length / 64) padded).foldl compress start

def hexDigest (message : Bytes) : String :=
  let s := digest message
  String.ofList ([s.a, s.b, s.c, s.d, s.e].flatMap fun w => hexDigits 8 w.toNat)

end BootImage.Sha1
