import BootImage.Usage.Help
import BootImage.Usage.Scan

/-!
# Command lines that are complete

A command line is complete if a subcommand was reached or nothing required is missing.  A request for help
comes before anything missing, but not before what the scan finds at fault.
-/

namespace BootImage

/-- Why a command line leads to no command: it asks for a help text, or it is at fault. -/
inductive Stop
  | help (text : String)
  | fault (error : UsageError)
  deriving DecidableEq, Repr

namespace Usage

variable {σ : Type}

def read (u : Usage σ) (initial : σ) (arguments : List String) : Except Stop (Scan σ) :=
  match u.scan arguments { values := initial } with
  | .error e => .error (.fault e)
  | .ok s =>
    if s.command.isSome then .ok s
    else if s.help.isSome then .error (.help u.help)
    else if s.positionals.length < u.positionals.length then
      .error (.fault (.positionalsMissing ((u.positionals.drop s.positionals.length).map (·.name))))
    else if u.commands.isEmpty then .ok s
    else .error (.fault (.commandMissing (u.commands.map (·.name))))

end Usage

end BootImage
