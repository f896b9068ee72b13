import BootImage.Command.Line

/-!
# Running the program

A run leads to an exit code and the texts on standard output and standard error.  The environment and the
options in front of the subcommand decide how events and texts are shown, and nothing else.
-/

namespace BootImage

structure Environment where
  /-- `FORCE_COLOR` -/
  forceColour : Option String := none
  /-- `NO_COLOR` -/
  noColour : Option String := none
  /-- `RUST_LOG` -/
  log : Option String := none
  deriving DecidableEq, Repr

structure Termination where
  exitCode : UInt32
  output : String := ""
  errors : String := ""
  deriving DecidableEq, Repr

namespace Environment

/-- Colour is forced by an empty value, by `true`, and by any number or word but `false` and zero. -/
def forcesColour (e : Environment) : Bool :=
  match e.forceColour with
  | none => false
  | some value => value ≠ "false" && !(Numeral.read 10 value.toList matches .ok 0)

/-- The threshold that a variable sets: a level's name in any case, or its rank; `info` if it is empty or
absent.  Other words switch off all events. -/
def threshold (e : Environment) : Option Level :=
  match e.log with
  | none => some .info
  | some value =>
    if value = "" then some .info
    else
      let lower := String.ofList (value.toList.map Char.toLower)
      Level.all.find? fun l => l.name = lower || toString l.rank = value

end Environment

namespace Invocation

/-- How the run shows its events and texts.  A level on the command line comes before that of the
environment. -/
def presentation (i : Invocation) (e : Environment) : Presentation where
  threshold := i.level.or e.threshold
  coloured := e.forcesColour && e.noColour.isNone && !i.noColour
  italicFields := e.noColour.all (· = "")

end Invocation

variable {m : Type → Type} [Monad m] [FileAccess m]

def Command.run (tag : String) : Command → m Outcome
  | .assemble arguments => arguments.run tag
  | .info image => runInfo image

def Outcome.render (o : Outcome) (p : Presentation) : Termination :=
  let log := Event.renderAll p o.events
  match o.failure with
  | none => ⟨0, o.output.render p.coloured, log⟩
  | some f => ⟨f.exitCode, o.output.render p.coloured, log ++ f.report⟩

def runProgram (tag : String) (e : Environment) (arguments : List String) : m Termination :=
  match Request.read arguments with
  | .error (.help text) => return ⟨0, text ++ "\n", ""⟩
  | .error (.fault error) =>
    return ⟨1, "", s!"{error.message}\nRun {programName} --help for more information.\n"⟩
  | .ok .version => return ⟨0, versionText ++ "\n", ""⟩
  | .ok (.run i) => do return (← i.command.run tag).render (i.presentation e)

end BootImage
