import BootImage.Image.Header

/-!
# Typed data on streams and in bounded buffers

A datum is a byte, a word, a block of bytes or one of the two headers; a shape says which of them comes next.
`Shape.read` takes a datum off a stream, field by field: a field that is not there in full uses up the stream,
and the datum's later fields are not tried.  `Datum.write` appends a datum to a buffer with limited room,
field by field as well: a field that does not fit is written as far as it fits, and the datum's later fields
are not tried.
-/

namespace BootImage

inductive TransferError
  | streamEnded
  | bufferFull
  deriving DecidableEq, Repr

def TransferError.message : TransferError → String
  | .streamEnded => "failed to fill whole buffer"
  | .bufferFull => "failed to write whole buffer"

inductive Shape
  | byte
  | word
  | block (size : Nat)
  | imageHeader
  | segmentHeader
  deriving DecidableEq, Repr

inductive Datum
  | byte (value : UInt8)
  | word (value : UInt32)
  | block (bytes : Bytes)
  | imageHeader (header : Header)
  | segmentHeader (header : SegmentHeader)
  deriving DecidableEq, Repr

def Shape.size : Shape → Nat
  | .byte => 1
  | .word => 4
  | .block size => size
  | .imageHeader => Header.size
  | .segmentHeader => SegmentHeader.size

abbrev Reader (α : Type) := EStateM TransferError Bytes α

namespace Reader

def byte : Reader UInt8
  | b :: rest => .ok b rest
  | [] => .error .streamEnded []

def pair : Reader (UInt8 × UInt8)
  | b₀ :: b₁ :: rest => .ok (b₀, b₁) rest
  | _ => .error .streamEnded []

def word : Reader UInt32
  | b₀ :: b₁ :: b₂ :: b₃ :: rest => .ok (BootImage.word b₀ b₁ b₂ b₃) rest
  | _ => .error .streamEnded []

def block (size : Nat) : Reader Bytes := fun stream =>
  if size ≤ stream.length then .ok (stream.take size) (stream.drop size) else .error .streamEnded []

def imageHeader : Reader Header := do
  let magic ← byte
  let format ← byte
  let reserved ← pair
  let entry ← word
  return { magic, format, reserved, entry }

def segmentHeader : Reader SegmentHeader := do
  let loadAddress ← word
  let length ← word
  return { loadAddress, length }

end Reader

def Shape.reader : Shape → Reader Datum
  | .byte => .byte <$> Reader.byte
  | .word => .word <$> Reader.word
  | .block size => .block <$> Reader.block size
  | .imageHeader => .imageHeader <$> Reader.imageHeader
  | .segmentHeader => .segmentHeader <$> Reader.segmentHeader

def Shape.read (shape : Shape) (stream : Bytes) : Except TransferError Datum × Bytes :=
  match shape.reader stream with
  | .ok datum rest => (.ok datum, rest)
  | .error e rest => (.error e, rest)

/-- Reads the shapes in turn, going on after a failure; with each answer what is then left of the stream. -/
def readAll : List Shape → Bytes → List (Except TransferError Datum × Bytes)
  | [], _ => []
  | shape :: shapes, stream => shape.read stream :: readAll shapes (shape.read stream).2

namespace Datum

def shape : Datum → Shape
  | .byte _ => .byte
  | .word _ => .word
  | .block bytes => .block bytes.length
  | .imageHeader _ => .imageHeader
  | .segmentHeader _ => .segmentHeader

def size (d : Datum) : Nat := d.shape.size

/-- The bytes that stand for the datum, whatever way it is written. -/
def encode : Datum → Bytes
  | .byte value => [value]
  | .word value => wordBytes value
  | .block bytes => bytes
  | .imageHeader h => h.encode
  | .segmentHeader h => h.encode

/-- What is written of the datum, one piece after the other. -/
def fields : Datum → List Bytes
  | .byte value => [[value]]
  | .word value => [wordBytes value]
  | .block bytes => [bytes]
  | .imageHeader h => [[h.magic], [h.format], [h.reserved.1, h.reserved.2], wordBytes h.entry]
  | .segmentHeader h => [wordBytes h.loadAddress, wordBytes h.length]

theorem length_encode (d : Datum) : d.encode.length = d.size := by
  cases d <;> rfl

theorem flatten_fields (d : Datum) : d.fields.flatten = d.encode := by
  cases d <;> simp [fields, encode, Header.encode, SegmentHeader.encode]

end Datum

structure BoundedBuffer where
  contents : Bytes := []
  /-- How many further bytes fit. -/
  room : Nat
  deriving DecidableEq, Repr

namespace BoundedBuffer

/-- Appends as many of the bytes as fit; a failure if that is not all of them. -/
def put (buffer : BoundedBuffer) (bytes : Bytes) : Except TransferError Unit × BoundedBuffer :=
  let next : BoundedBuffer := ⟨buffer.contents ++ bytes.take buffer.room, buffer.room - bytes.length⟩
  if bytes.length ≤ buffer.room then (.ok (), next) else (.error .bufferFull, next)

/-- Appends the fields in turn and stops at the first that does not fit. -/
def putFields (buffer : BoundedBuffer) : List Bytes → Except TransferError Unit × BoundedBuffer
  | [] => (.ok (), buffer)
  | field :: fields =>
    match buffer.put field with
    | (.ok (), next) => next.putFields fields
    | (.error e, next) => (.error e, next)

end BoundedBuffer

def Datum.write (d : Datum) (buffer : BoundedBuffer) : Except TransferError Unit × BoundedBuffer :=
  buffer.putFields d.fields

/-- Writes the data in turn, going on after a failure; with each answer the buffer as it is then. -/
def writeAll : List Datum → BoundedBuffer → List (Except TransferError Unit × BoundedBuffer)
  | [], _ => []
  | d :: ds, buffer => d.write buffer :: writeAll ds (d.write buffer).2

end BootImage
