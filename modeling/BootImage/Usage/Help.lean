import BootImage.Usage.Basic

/-!
# Help texts

A help text shows a command's usage, its summary, and its arguments, options and subcommands in two columns.
Lines are filled up to eighty characters; the right column starts two characters behind the longest entry of
the left.
-/

namespace BootImage

def lineWidth : Nat := 80

/-- Fills lines of at most `width` characters with items, of which the first line has some already. -/
def fillFrom (width : Nat) (line : String) : List String → List String
  | [] => [line]
  | item :: items =>
    if line.length + 1 + item.length ≤ width then fillFrom width (line ++ " " ++ item) items
    else line :: fillFrom width item items

/-- The items in lines of at most `lineWidth` characters; the items are indented by `indent`, of which the
first line has the indentation already. -/
def fill (indent : Nat) : List String → String
  | [] => ""
  | item :: items =>
    let lineBreak := "\n" ++ String.ofList (List.replicate indent ' ')
    lineBreak.intercalate (fillFrom (lineWidth - indent) item items)

def spaced (text : String) : List String := (text.toList.splitOn ' ').map String.ofList

namespace OptionUsage

variable {σ : Type}

def usageItem (o : OptionUsage σ) : String :=
  let spelling := match o.short with
    | some c => "-" ++ c.toString
    | none => "--" ++ o.long
  if o.takesValue then s!"[{spelling} <{o.long}>]" else s!"[{spelling}]"

/-- The option in the list of options: both its spellings, and its value with underscores for hyphens. -/
def entry (o : OptionUsage σ) : String :=
  let letter := match o.short with
    | some c => "-" ++ c.toString ++ ", "
    | none => "    "
  letter ++ "--" ++ o.long ++
    if o.takesValue then " <" ++ String.ofList (o.long.toList.map fun c => if c = '-' then '_' else c) ++ ">"
    else ""

end OptionUsage

namespace Usage

variable {σ : Type}

def helpEntry : Described := ⟨"-h, --help", "Show this help message and exit."⟩

/-- The titled lists of a help text; a list without entries is left out. -/
def sections (u : Usage σ) : List (String × List Described) :=
  [("Arguments", u.positionals),
    ("Options", u.options.map (fun o => ⟨o.entry, o.description⟩) ++ [helpEntry]),
    ("Commands", u.commands)].filter fun (_, entries) => !entries.isEmpty

def descriptionColumn (u : Usage σ) : Nat :=
  (u.sections.flatMap fun (_, entries) => entries.map fun e => e.name.length + 4).foldl max 0

def row (column : Nat) (d : Described) : String :=
  "  " ++ d.name ++ String.ofList (List.replicate (column - (d.name.length + 2)) ' ') ++
    fill column (spaced d.description) ++ "\n"

def items (u : Usage σ) : List String :=
  u.options.map (·.usageItem) ++ u.positionals.map (fun p => s!"<{p.name}>") ++
    if u.commands.isEmpty then [] else ["<command>", "[<args>]"]

def help (u : Usage σ) : String :=
  let start := "Usage: " ++ u.command ++ " "
  start ++ fill start.length u.items ++ "\n\n" ++ fill 0 (spaced u.summary) ++ "\n" ++
    String.join (u.sections.map fun (title, entries) =>
      "\n" ++ title ++ ":\n" ++ String.join (entries.map (row u.descriptionColumn)))

end Usage

end BootImage
