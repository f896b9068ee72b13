/-!
# Usages of a command

A usage says which positional arguments, options and subcommands a command takes.  An option acts on the
values collected so far, either by being there or by the value given behind it.
-/

namespace BootImage

/-- What giving an option does to the collected values. -/
inductive OptionEffect (σ : Type)
  | switch (set : σ → σ)
  /-- The option takes a value; it may be given only while `isGiven` does not hold. -/
  | value (isGiven : σ → Bool) (set : String → σ → Except String σ)

structure OptionUsage (σ : Type) where
  long : String
  short : Option Char := none
  description : String
  effect : OptionEffect σ

def OptionUsage.takesValue {σ : Type} (o : OptionUsage σ) : Bool :=
  match o.effect with
  | .switch _ => false
  | .value _ _ => true

structure Described where
  name : String
  description : String
  deriving DecidableEq, Repr

structure Usage (σ : Type) where
  /-- The command's name, with the names of the commands that it belongs to. -/
  command : String
  summary : String
  positionals : List Described := []
  options : List (OptionUsage σ) := []
  commands : List Described := []

inductive UsageError
  | unrecognized (argument : String)
  | valueMissing (option : String)
  | repeated (option : String)
  | badValue (option value reason : String)
  | optionAfterHelp
  | positionalsMissing (names : List String)
  | commandMissing (names : List String)
  deriving DecidableEq, Repr

end BootImage
