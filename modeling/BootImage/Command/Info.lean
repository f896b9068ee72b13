import BootImage.Command.Failure
import BootImage.Sha1

/-!
# The command that inspects an image

The command prints what an image holds, and its digest, before it says whether the image is sound.
-/

namespace BootImage

namespace Image

def segmentLines (i : Image) : String :=
  String.join (i.placements.zipIdx.map fun ((offset, s), number) =>
    let length := hexSize s.data.length
    s!"Segment {number}: load {hexAddress s.loadAddress}, {length} bytes at offset {hexSize offset}\n")

def checksumSpan (i : Image) : Span :=
  if i.checksum = i.computedChecksum then ⟨"OK", some .green⟩
  else ⟨s!"FAILED, computed {hexByte i.computedChecksum}", some .red⟩

def summary (i : Image) : Styled :=
  [.plain s!"Entry point: {hexAddress i.header.entry}\nFormat: {i.header.format}\n{i.segmentLines}",
    .plain s!"Size: {hexSize i.size} bytes\nChecksum: {hexByte i.checksum} (", i.checksumSpan, .plain ")\n"]

end Image

def inspect (path : Path) (contents : Except ReadFailure Bytes) : Outcome :=
  match contents with
  | .error e => { events := [], failure := some (.unreadable path e.error) }
  | .ok bytes =>
    match Image.decode bytes with
    | .error e => { events := [], failure := some (.undecodable path e) }
    | .ok image =>
      { events := []
        output := image.summary ++ [.plain s!"SHA-1: {Sha1.hexDigest bytes}\n"]
        failure :=
          match image.verify with
          | .ok () => none
          | .error e => some (.unsound path e) }

def runInfo {m : Type → Type} [Monad m] [FileAccess m] (path : Path) : m Outcome := do
  return inspect path (← FileAccess.read path)

end BootImage
