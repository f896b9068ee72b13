import BootImage.Bytes

/-!
# Lines of a file

A line ends at a line feed, and a carriage return just before the line feed belongs to the line's end.  What
follows the last line feed is a line if it is not empty; a carriage return at its end is part of it.
-/

namespace BootImage

def lineFeed : UInt8 := 10

def carriageReturn : UInt8 := 13

def dropReturn (line : Bytes) : Bytes := if line.getLast? = some carriageReturn then line.dropLast else line

/-- The lines of a file, without their ends. -/
def lines (bytes : Bytes) : List Bytes :=
  let pieces := bytes.splitOn lineFeed
  pieces.dropLast.map dropReturn ++ pieces.getLast?.toList.filter fun piece => !piece.isEmpty

def decodeText? (bytes : Bytes) : Option String := String.fromUTF8? bytes.toByteArray

/-- The lines as text, up to the first that is not UTF-8, and whether there is such a line. -/
def textLines (bytes : Bytes) : List String × Bool :=
  let texts := (lines bytes).map decodeText?
  ((texts.takeWhile Option.isSome).filterMap id, texts.any Option.isNone)

end BootImage
