import BootImage.Assembly
import BootImage.Command.Failure
import BootImage.Memory

/-!
# The command that assembles an image

The command reads a symbol listing and two section binaries, writes the image made of them, and prints the
memory usage.  Whatever can fail before the image is written fails before any file is touched.
-/

namespace BootImage

structure AssembleArguments where
  symbols : Path
  text : Path
  rodata : Path
  out : Path
  policy : Policy := .strict
  sizes : MemorySizes := {}
  deriving DecidableEq, Repr

namespace Builder

def packEvents (b : Builder) (s : Section) : List Event :=
  if s.contents.isEmpty then [{ level := .debug, message := s!"Skipping empty segment '{s.name}'" }]
  else
    match s.paddedLength .checked with
    | .error _ => []
    | .ok length =>
      let size := hexSize s.contents.length
      let padding := length.toNat - s.contents.length
      let filling : Event :=
        { level := .debug,
          message := s!"Segment '{s.name}': {size} bytes + {padding} padding (align {s.alignment})" }
      match b.pack s with
      | .error _ => [filling]
      | .ok _ =>
        let padded := hexSize length.toNat
        let offset := hexSize b.contents.length
        [filling, { level := .info,
                    message := s!"{s.name} @ {hexAddress s.loadAddress}: {padded} bytes at offset {offset}" }]

def packLogged (b : Builder) (s : Section) : Logged PackFailure Builder :=
  .during (.pack s.name) ⟨b.packEvents s, b.pack s⟩

def completeLogged (b : Builder) : Logged PackFailure CompleteImage := do
  .note .debug s!"Final padding: {tailPadding b.contents.length} bytes, {b.tally.padding} segment pad bytes"
  return b.complete

end Builder

def assembleLogged (layout : Layout) (text rodata : Bytes) : Logged PackFailure CompleteImage := do
  let packed ← (layout.sections text rodata).foldlM Builder.packLogged (.start { entry := layout.entry })
  packed.completeLogged

theorem result_assembleLogged (layout : Layout) (text rodata : Bytes) :
    (assembleLogged layout text rodata).result = assemble layout text rodata := by
  simp only [assembleLogged, Logged.result_bind, Logged.result_foldlM, Builder.completeLogged,
    Logged.result_note, Logged.result_pure, Builder.packLogged, Logged.result_during, assemble,
    Builder.packAll]
  cases (layout.sections text rodata).foldlM Builder.pack (.start { entry := layout.entry }) <;> rfl

namespace AssembleArguments

variable (a : AssembleArguments)

def readLayout (listing : Except ReadFailure Bytes) : Logged Failure Layout := do
  let bytes ← .ofResult (listing.mapError fun
    | .opening e => .unopened a.symbols e
    | .reading e => .listing a.symbols (.unreadable e))
  .emit ((Listing.skipped bytes).map fun (number, line) =>
    { level := .trace, message := s!"Skipping symbol table line {number}: '{line}'" })
  let table ← .ofResult ((Listing.table bytes).mapError (.listing a.symbols))
  if table.isEmpty then .ofResult (.error (.emptyListing a.symbols))
  else
    .note .debug s!"Parsed {table.size} symbol records"
    .emit ((Layout.defaulted a.policy table).map fun m =>
      { level := .warn, message := s!"Missing symbol '{m.name}', defaulting to 0 (legacy mode)" })
    .ofResult ((Layout.ofTable a.policy table).mapError (.layout a.symbols))

/-- The layout and the image that the three inputs describe. -/
def plan (listing text rodata : Except ReadFailure Bytes) : Logged Failure (Layout × CompleteImage) := do
  let layout ← .during .symbols (a.readLayout listing)
  .note .info s!"Entry point: {hexAddress layout.entry}"
  let text ← .ofResult (text.mapError fun e => .unreadable a.text e.error)
  let rodata ← .ofResult (rodata.mapError fun e => .unreadable a.rodata e.error)
  let assembled := assembleLogged layout text rodata
  let image ← ⟨assembled.events, assembled.result.mapError .packing⟩
  return (layout, image)

/-- What is logged and printed once the image is written. -/
def conclude (layout : Layout) (image : CompleteImage) : List Event × Styled :=
  let usage := MemoryUsage.ofBounds layout.bounds a.sizes
  let size := hexSize image.contents.length
  let written : Event :=
    { level := .info, message := s!"Wrote '{a.out.text}' ({size} bytes, checksum {hexByte image.checksum})" }
  (written :: usage.warnings.map (fun w => { level := .warn, message := w.message }),
    usage.styled ++ [.plain "\n"])

variable {m : Type → Type} [Monad m] [FileAccess m]

/-- Runs the command; `tag` tells its temporary file from those of others. -/
def run (tag : String) : m Outcome := do
  let planned := a.plan (← FileAccess.read a.symbols) (← FileAccess.read a.text) (← FileAccess.read a.rodata)
  match planned.result with
  | .error e => return { events := planned.events, failure := some e }
  | .ok (layout, image) =>
    match ← FileAccess.writeAtomically tag a.out image.contents with
    | .error e => return { events := planned.events, failure := some (.write e) }
    | .ok () =>
      let (events, output) := a.conclude layout image
      return { events := planned.events ++ events, output }

end AssembleArguments

end BootImage
