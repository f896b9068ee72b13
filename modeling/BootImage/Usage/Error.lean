import BootImage.Text.Quoted
import BootImage.Usage.Basic

/-!
# Messages about a command line
-/

namespace BootImage

def nameLines (names : List String) : String := String.join (names.map fun name => "    " ++ name ++ "\n")

def UsageError.message : UsageError → String
  | .unrecognized argument => s!"Unrecognized argument: {argument}"
  | .valueMissing option => s!"Option '{option}' requires a value."
  | .repeated option => s!"Option '{option}' can only be used once."
  | .badValue option value reason =>
    s!"Error parsing option '{option}' with value '{quoted value}': {reason}."
  | .optionAfterHelp => "Trailing options are not allowed after 'help' subcommand."
  | .positionalsMissing names => "Required positional arguments not provided:\n" ++ nameLines names
  | .commandMissing names =>
    "One of the following subcommands must be present:\n" ++ nameLines ("help" :: names)

end BootImage
