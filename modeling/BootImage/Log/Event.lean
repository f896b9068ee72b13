import BootImage.Text.Control
import BootImage.Text.Quoted
import BootImage.Text.Styled

/-!
# Log events

An event has a level, a message and the activities that it happened in.  Events are shown up to a threshold
level; of an event's activities only those whose own level is shown appear before the message.  A message
never makes the terminal act: the controls in it are written out.
-/

namespace BootImage

inductive Level
  | error
  | warn
  | info
  | debug
  | trace
  deriving DecidableEq, Repr

namespace Level

def rank : Level → Nat
  | .error => 1
  | .warn => 2
  | .info => 3
  | .debug => 4
  | .trace => 5

def label : Level → String
  | .error => "ERROR"
  | .warn => " WARN"
  | .info => " INFO"
  | .debug => "DEBUG"
  | .trace => "TRACE"

def name : Level → String
  | .error => "error"
  | .warn => "warn"
  | .info => "info"
  | .debug => "debug"
  | .trace => "trace"

def all : List Level := [.error, .warn, .info, .debug, .trace]

def colourCode : Level → String
  | .error => "31"
  | .warn => "33"
  | .info => "32"
  | .debug => "34"
  | .trace => "35"

end Level

structure Presentation where
  /-- The level up to which events are shown; without one, none is. -/
  threshold : Option Level := some .info
  coloured : Bool := false
  /-- Whether the names of fields are set in italics, with or without colour. -/
  italicFields : Bool := true
  deriving DecidableEq, Repr

namespace Presentation

def shows (p : Presentation) (l : Level) : Bool := p.threshold.any fun t => l.rank ≤ t.rank

end Presentation

inductive Activity
  /-- Reading and resolving the symbol listing. -/
  | symbols
  /-- Packing the section of the given name. -/
  | pack (segment : String)
  deriving DecidableEq, Repr

structure Event where
  level : Level
  /-- The activities that were under way, the outermost first. -/
  activities : List Activity := []
  message : String
  deriving DecidableEq, Repr

/-- Text set in a rendition and followed by a reset, if it is to stand out. -/
def emphasised (really : Bool) (code text : String) : String :=
  if really then selectRendition code ++ text ++ selectRendition "0" else text

namespace Activity

def level : Activity → Level
  | .symbols => .info
  | .pack _ => .debug

def renderField (p : Presentation) (name value : String) : String :=
  emphasised p.italicFields "3" name ++ emphasised p.italicFields "2" "=" ++ quoted value

def render (p : Presentation) : Activity → String
  | .symbols => emphasised p.coloured "1" "symbols"
  | .pack segment =>
    emphasised p.coloured "1" "pack" ++ emphasised p.coloured "1" "\x7b" ++ renderField p "segment" segment ++
      emphasised p.coloured "1" "\x7d"

end Activity

namespace Event

def renderActivities (p : Presentation) (activities : List Activity) : String :=
  if activities.isEmpty then ""
  else String.join (activities.map fun a => a.render p ++ emphasised p.coloured "2" ":") ++ " "

def render (p : Presentation) (e : Event) : String :=
  emphasised p.coloured e.level.colourCode e.level.label ++ " " ++
    renderActivities p (e.activities.filter fun a => p.shows a.level) ++ withoutControls e.message ++ "\n"

def renderAll (p : Presentation) (events : List Event) : String :=
  String.join ((events.filter fun e => p.shows e.level).map (·.render p))

end Event

end BootImage
