import BootImage.Usage.Basic

/-!
# Reading a command line

The arguments are read from the left.  `help`, `--help` and `-h` ask for help, `--` ends the options, letters
behind a single dash are options one after the other, of which only the last may take a value.  An option's
value is the next argument, whatever it looks like.  No option may follow the word `help`, unless `--help` or
`-h` stands between them.  The first argument that is a subcommand's name ends the scan; what follows it, with
`help` before it if help was asked for, is the subcommand's own.
-/

namespace BootImage

structure Pending (σ : Type) where
  spelling : String
  isGiven : σ → Bool
  set : String → σ → Except String σ

inductive HelpRequest
  /-- By `--help` or `-h`. -/
  | switch
  /-- By the word `help`. -/
  | word
  deriving DecidableEq, Repr

structure Scan (σ : Type) where
  values : σ
  positionals : List String := []
  /-- The latest request for help. -/
  help : Option HelpRequest := none
  optionsOver : Bool := false
  pending : Option (Pending σ) := none
  /-- The subcommand that was reached, and its arguments. -/
  command : Option (String × List String) := none

namespace Usage

variable {σ : Type}

def option? (u : Usage σ) (spelling : String) : Option (OptionUsage σ) :=
  u.options.find? fun o => spelling = "--" ++ o.long || o.short.any fun c => spelling = String.ofList ['-', c]

def takeOption (o : OptionUsage σ) (spelling : String) (s : Scan σ) : Scan σ :=
  match o.effect with
  | .switch set => { s with values := set s.values }
  | .value isGiven set => { s with pending := some ⟨spelling, isGiven, set⟩ }

/-- Takes the letters behind a dash as options; only the last of them may be one with a value. -/
def takeLetters (u : Usage σ) : List Char → Scan σ → Except UsageError (Scan σ)
  | [], s => .ok s
  | c :: letters, s =>
    let spelling := String.ofList ['-', c]
    match u.option? spelling with
    | none => .error (.unrecognized spelling)
    | some o =>
      if o.takesValue && !letters.isEmpty then .error (.valueMissing spelling)
      else u.takeLetters letters (takeOption o spelling s)

def takeDashed (u : Usage σ) (argument : String) (s : Scan σ) : Except UsageError (Scan σ) :=
  match u.option? argument with
  | some o => .ok (takeOption o argument s)
  | none =>
    match argument.toList with
    | '-' :: c :: letters =>
      if c = '-' then .error (.unrecognized argument) else u.takeLetters (c :: letters) s
    | _ => .error (.unrecognized argument)

def supply (p : Pending σ) (value : String) (s : Scan σ) : Except UsageError (Scan σ) :=
  if p.isGiven s.values then .error (.repeated p.spelling)
  else
    match p.set value s.values with
    | .error reason => .error (.badValue p.spelling value reason)
    | .ok values => .ok { s with values, pending := none }

/-- Takes an argument that is neither an option's value nor a subcommand's name. -/
def takeArgument (u : Usage σ) (argument : String) (s : Scan σ) : Except UsageError (Scan σ) :=
  if !s.optionsOver && (argument = "--help" || argument = "-h") then .ok { s with help := some .switch }
  else if !s.optionsOver && argument = "help" then .ok { s with help := some .word }
  else if !s.optionsOver && argument = "--" then .ok { s with optionsOver := true }
  else if !s.optionsOver && argument.startsWith "-" then
    if s.help = some .word then .error .optionAfterHelp else u.takeDashed argument s
  else if s.positionals.length < u.positionals.length then
    .ok { s with positionals := s.positionals ++ [argument] }
  else .error (.unrecognized argument)

def isCommand (u : Usage σ) (argument : String) : Bool := u.commands.any (·.name = argument)

def scan (u : Usage σ) : List String → Scan σ → Except UsageError (Scan σ)
  | [], s =>
    match s.pending with
    | some p => .error (.valueMissing p.spelling)
    | none => .ok s
  | argument :: rest, s =>
    match s.pending with
    | some p => supply p argument s >>= u.scan rest
    | none =>
      if u.isCommand argument then
        .ok { s with command := some (argument, if s.help.isSome then "help" :: rest else rest) }
      else u.takeArgument argument s >>= u.scan rest

end Usage

end BootImage
