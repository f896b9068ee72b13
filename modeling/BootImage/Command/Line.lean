import BootImage.Command.Assemble
import BootImage.Command.Info
import BootImage.Usage.Error
import BootImage.Usage.Read

/-!
# The program's command line

The program has two subcommands, options of its own before them, and a switch that asks for the version.  The
version is printed only if the command line consists of that switch; in front of a subcommand the switch does
nothing.
-/

namespace BootImage

def programName : String := "appbin"

def versionText : String := programName ++ " 0.1.0 unknown"

inductive Command
  | assemble (arguments : AssembleArguments)
  | info (image : Path)
  deriving DecidableEq, Repr

structure Invocation where
  command : Command
  level : Option Level := none
  noColour : Bool := false
  deriving DecidableEq, Repr

inductive Request
  | version
  | run (invocation : Invocation)
  deriving DecidableEq, Repr

structure AssembleOptions where
  legacy : Bool := false
  iram : Option UInt32 := none
  sram : Option UInt32 := none
  deriving DecidableEq, Repr

structure ProgramOptions where
  level : Option Level := none
  noColour : Bool := false
  version : Bool := false
  deriving DecidableEq, Repr

def assembleUsage : Usage AssembleOptions where
  command := programName ++ " assemble"
  summary := "Assembles a flash image from section binaries and a linker symbol table."
  positionals := [⟨"symbols", "Symbol table listing (nm output)."⟩, ⟨"text", "Raw .text section binary."⟩,
    ⟨"rodata", "Raw .rodata section binary."⟩, ⟨"out", "Output flash image."⟩]
  options := [
    { long := "legacy-symbols"
      description := "Default missing _rodata_start and _bss_end symbols to 0."
      effect := .switch fun o => { o with legacy := true } },
    { long := "iram-size"
      description := "IRAM capacity for the memory report. (Default: 0x4000)"
      effect := .value (·.iram.isSome) fun value o =>
        ((Numeral.readNumber value).mapError (·.message)).map fun n => { o with iram := some n } },
    { long := "sram-size"
      description := "SRAM capacity for the memory report. (Default: 0x1000)"
      effect := .value (·.sram.isSome) fun value o =>
        ((Numeral.readNumber value).mapError (·.message)).map fun n => { o with sram := some n } }]

def infoUsage : Usage Unit where
  command := programName ++ " info"
  summary := "Prints the layout of a flash image and verifies its checksum."
  positionals := [⟨"image", "Flash image to inspect."⟩]

def versionOption {σ : Type} (set : σ → σ) : OptionUsage σ where
  long := "version"
  short := some 'V'
  description := "Print version information and exit."
  effect := .switch set

def programUsage : Usage ProgramOptions where
  command := programName
  summary := "Flash image tools for ESP8266 second-stage bootloaders."
  options := [
    { long := "log-level"
      short := some 'L'
      description := "Minimum logging level. (Default: info) Possible values: error, warn, info, debug, trace"
      effect := .value (·.level.isSome) fun value o =>
        match Level.all.find? (·.name = value) with
        | some l => .ok { o with level := some l }
        | none => .error "Invalid log level" },
    versionOption fun o => { o with version := true },
    { long := "no-color"
      description := "Disable color output. (env: NO_COLOR)"
      effect := .switch fun o => { o with noColour := true } }]
  commands := [⟨"assemble", assembleUsage.summary⟩, ⟨"info", infoUsage.summary⟩]

def versionUsage : Usage Bool where
  command := programName
  summary := ""
  options := [versionOption fun _ => true]

def AssembleArguments.read (arguments : List String) : Except Stop AssembleArguments := do
  let s ← assembleUsage.read {} arguments
  match s.positionals with
  | [symbols, text, rodata, out] =>
    let standard : MemorySizes := {}
    return { symbols := .ofText symbols, text := .ofText text, rodata := .ofText rodata, out := .ofText out
             policy := if s.values.legacy then .legacy else .strict
             sizes := ⟨s.values.iram.getD standard.iram, s.values.sram.getD standard.sram⟩ }
  | names => throw (.fault (.positionalsMissing names))

def readInfoArgument (arguments : List String) : Except Stop Path := do
  let s ← infoUsage.read () arguments
  match s.positionals with
  | [image] => return .ofText image
  | names => throw (.fault (.positionalsMissing names))

def Command.read (name : String) (arguments : List String) : Except Stop Command :=
  if name = "assemble" then (AssembleArguments.read arguments).map .assemble
  else (readInfoArgument arguments).map .info

def Invocation.read (arguments : List String) : Except Stop Invocation := do
  let s ← programUsage.read {} arguments
  match s.command with
  | some (name, rest) =>
    return { command := ← Command.read name rest, level := s.values.level, noColour := s.values.noColour }
  | none => throw (.fault (.commandMissing (programUsage.commands.map (·.name))))

/-- Reads the program's arguments: first as a request for the version or for help alone, then in full. -/
def Request.read (arguments : List String) : Except Stop Request :=
  match versionUsage.read false arguments with
  | .ok s => if s.values then .ok .version else (Invocation.read arguments).map .run
  | .error (.help _) => .error (.help programUsage.help)
  | .error (.fault _) => (Invocation.read arguments).map .run

end BootImage
