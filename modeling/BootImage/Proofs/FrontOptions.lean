import Mathlib
import BootImage.Command.Program

/-!
# Options in front of a subcommand

* (words) The options in front of a subcommand are words of their own, or letters behind one dash; each kind
  acts on the values read so far, whatever follows it: `scan_words`.
* (command lines) A command line with a subcommand is read as its options say and then as the subcommand:
  `invocation_frontWords`.  The version switch does nothing there: `invocation_withoutVersion`.
-/

namespace BootImage

/-- An option in front of a subcommand, as it is written. -/
inductive FrontOption
  /-- `--version` -/
  | version
  /-- `-V`, with so many further letters `V` behind it. -/
  | versionLetters (more : Nat)
  /-- `--no-color` -/
  | noColour
  /-- `--log-level` and a value. -/
  | level (value : String)
  /-- `-L` and a value, with so many letters `V` behind the dash. -/
  | levelLetter (versions : Nat) (value : String)
  deriving DecidableEq, Repr

namespace FrontOption

def words : FrontOption → List String
  | .version => ["--version"]
  | .versionLetters more => [String.ofList ('-' :: List.replicate (more + 1) 'V')]
  | .noColour => ["--no-color"]
  | .level value => ["--log-level", value]
  | .levelLetter versions value => [String.ofList ('-' :: (List.replicate versions 'V' ++ ['L'])), value]

/-- Whether the version switch is given, by itself or together with the level. -/
def GivesVersion : FrontOption → Prop
  | .version | .versionLetters _ => True
  | .noColour | .level _ => False
  | .levelLetter versions _ => 0 < versions

def IsVersion : FrontOption → Prop
  | .version | .versionLetters _ => True
  | .noColour | .level _ | .levelLetter _ _ => False

instance : DecidablePred GivesVersion := fun o => by
  cases o <;> unfold GivesVersion <;> infer_instance

instance : DecidablePred IsVersion := fun o => by
  cases o <;> unfold IsVersion <;> infer_instance

def withoutVersion : FrontOption → List FrontOption
  | .version | .versionLetters _ => []
  | .noColour => [.noColour]
  | .level value => [.level value]
  | .levelLetter _ value => [.levelLetter 0 value]

def giveLevel (spelling value : String) (values : ProgramOptions) : Except UsageError ProgramOptions :=
  if values.level.isSome then .error (.repeated spelling)
  else (Level.all.find? (·.name = value)).elim (.error (.badValue spelling value "Invalid log level"))
    fun l => .ok { values with level := some l }

def give (values : ProgramOptions) : FrontOption → Except UsageError ProgramOptions
  | .version | .versionLetters _ => .ok { values with version := true }
  | .noColour => .ok { values with noColour := true }
  | .level value => giveLevel "--log-level" value values
  | .levelLetter versions value =>
    giveLevel "-L" value { values with version := values.version || 0 < versions }

end FrontOption

def frontWords (front : List FrontOption) : List String := front.flatMap FrontOption.words

/-! ### Single arguments -/

namespace Usage

variable {σ : Type} {u : Usage σ} {set : σ → σ}

private theorem scan_cons {a : String} {s : Scan σ} (hs : s.pending = none) (ha : u.isCommand a = false)
    (rest : List String) : u.scan (a :: rest) s = u.takeArgument a s >>= u.scan rest := by
  rw [scan, hs]
  simp only [ha, Bool.false_eq_true, if_false]

theorem exists_of_scan_cons {a : String} {rest : List String} {s s' : Scan σ} (hs : s.pending = none)
    (ha : u.isCommand a = false) (h : u.scan (a :: rest) s = .ok s') :
    ∃ next, u.takeArgument a s = .ok next ∧ u.scan rest next = .ok s' := by
  rw [scan_cons hs ha] at h
  cases hnext : u.takeArgument a s with
  | error e =>
    rw [hnext] at h
    contradiction
  | ok next =>
    rw [hnext] at h
    exact ⟨next, rfl, h⟩

private theorem takeLetters_versions (h : u.option? "-V" = some (versionOption set)) (n : Nat)
    (letters : List Char) (s : Scan σ) :
    u.takeLetters (List.replicate n 'V' ++ letters) s =
      u.takeLetters letters { s with values := set^[n] s.values } := by
  induction n generalizing s with
  | zero => rfl
  | succ n ih =>
    rw [List.replicate_succ, List.cons_append, takeLetters, show String.ofList ['-', 'V'] = "-V" from rfl, h]
    exact ih _

theorem takeDashed_of_option {a : String} {o : OptionUsage σ} (h : u.option? a = some o) (s : Scan σ) :
    u.takeDashed a s = .ok (takeOption o a s) := by
  rw [takeDashed, h]

/-- No option is spelled with one dash and several letters. -/
private theorem takeDashed_letters {letters : List Char} (hlength : 2 ≤ letters.length)
    (hdash : '-' ∉ letters) (s : Scan σ) :
    u.takeDashed (String.ofList ('-' :: letters)) s = u.takeLetters letters s := by
  match letters, hlength with
  | c :: d :: more, _ =>
    have hc : c ≠ '-' := (List.ne_of_not_mem_cons hdash).symm
    have hnone : u.option? (String.ofList ('-' :: c :: d :: more)) = none := by
      rw [option?, List.find?_eq_none]
      intro o _
      simp [String.ext_iff, hc]
    rw [takeDashed, hnone]
    simp only [String.toList_ofList, hc, if_false]

theorem takeDashed_versions (h : u.option? "-V" = some (versionOption set)) (n : Nat) (s : Scan σ) :
    u.takeDashed (String.ofList ('-' :: List.replicate (n + 1) 'V')) s =
      .ok { s with values := set^[n + 1] s.values } := by
  cases n with
  | zero => exact takeDashed_of_option h s
  | succ n =>
    rw [takeDashed_letters (by simp) (by simp), ← List.append_nil (List.replicate _ _),
      takeLetters_versions h]
    rfl

/-- An argument that starts with a dash and is no request for help. -/
theorem scan_dashed {a : String} {letters : List Char} (ha : a.toList = '-' :: letters)
    (hcommand : u.isCommand a = false) (hother : a ∉ ["--help", "-h", "help", "--"]) (values : σ)
    (rest : List String) :
    u.scan (a :: rest) { values } = u.takeDashed a { values } >>= u.scan rest := by
  have hstart : a.startsWith "-" = true := by
    rw [String.startsWith_string_iff, ha, String.toList_ofList]
    exact List.prefix_append ['-'] letters
  simp only [List.mem_cons, List.not_mem_nil, or_false, not_or] at hother
  obtain ⟨hlong, hshort, hword, hend⟩ := hother
  rw [scan_cons rfl hcommand, takeArgument]
  simp only [hlong, hshort, hword, hend, hstart]
  rfl

private theorem scan_letters {letters : List Char} (hne : letters ≠ []) (hdash : '-' ∉ letters)
    (hh : 'h' ∉ letters) (hcommand : u.isCommand (String.ofList ('-' :: letters)) = false) (values : σ)
    (rest : List String) :
    u.scan (String.ofList ('-' :: letters) :: rest) { values } =
      u.takeDashed (String.ofList ('-' :: letters)) { values } >>= u.scan rest := by
  refine scan_dashed String.toList_ofList hcommand ?_ values rest
  match letters, hne with
  | c :: more, _ =>
    have hc : c ≠ '-' := (List.ne_of_not_mem_cons hdash).symm
    have hc' : c ≠ 'h' := (List.ne_of_not_mem_cons hh).symm
    simp [String.ext_iff, hc, hc']

end Usage

/-! ### Options in front of a subcommand -/

theorem isCommand_dashed (letters : List Char) :
    programUsage.isCommand (String.ofList ('-' :: letters)) = false := by
  simp [Usage.isCommand, programUsage, String.ext_iff]

theorem option?_version :
    programUsage.option? "-V" = some (versionOption fun o => { o with version := true }) := rfl

private theorem iterate_version (n : Nat) (values : ProgramOptions) :
    (fun o : ProgramOptions => { o with version := true })^[n] values =
      { values with version := values.version || 0 < n } := by
  induction n with
  | zero => simp
  | succ n ih => simp [Function.iterate_succ_apply', ih]

private theorem takeDashed_levelLetter (versions : Nat) (values : ProgramOptions)
    {o : OptionUsage ProgramOptions} (ho : programUsage.options.head? = some o) :
    programUsage.takeDashed (String.ofList ('-' :: (List.replicate versions 'V' ++ ['L']))) { values } =
      .ok (Usage.takeOption o "-L"
        { values := { values with version := values.version || 0 < versions } }) := by
  rw [← iterate_version]
  cases versions with
  | zero => exact Usage.takeDashed_of_option (show programUsage.option? "-L" = some o from ho) { values }
  | succ n =>
    rw [Usage.takeDashed_letters (by simp) (by simp), Usage.takeLetters_versions option?_version]
    cases ho
    rfl

/-- The argument behind a level's spelling is its value. -/
private theorem scan_level (spelling : String) {o : OptionUsage ProgramOptions}
    (ho : programUsage.options.head? = some o) (values : ProgramOptions) (value : String)
    (rest : List String) :
    programUsage.scan (value :: rest) (Usage.takeOption o spelling { values }) =
      FrontOption.giveLevel spelling value values >>= fun given =>
        programUsage.scan rest { values := given } := by
  cases ho
  show (Usage.supply _ value _ >>= programUsage.scan rest) = _
  rw [Usage.supply, FrontOption.giveLevel]
  by_cases hgiven : values.level.isSome
  · simp only [Usage.takeOption, hgiven, if_true]
    rfl
  · simp only [Usage.takeOption, hgiven]
    cases Level.all.find? (·.name = value) <;> rfl

/-- What an option in front does, whatever follows it. -/
theorem scan_words (o : FrontOption) (values : ProgramOptions) (rest : List String) :
    programUsage.scan (o.words ++ rest) { values } =
      o.give values >>= fun given => programUsage.scan rest { values := given } := by
  cases o with
  | version =>
    rw [FrontOption.words, List.singleton_append, Usage.scan_dashed rfl rfl (by decide)]
    rfl
  | versionLetters more =>
    rw [FrontOption.words, List.singleton_append, Usage.scan_letters (by simp) (by simp) (by simp)
      (isCommand_dashed _), Usage.takeDashed_versions option?_version, iterate_version,
      decide_eq_true (Nat.succ_pos more), Bool.or_true]
    rfl
  | noColour =>
    rw [FrontOption.words, List.singleton_append, Usage.scan_dashed rfl rfl (by decide)]
    rfl
  | level value =>
    have hlevel : programUsage.option? "--log-level" = programUsage.options.head? := rfl
    rw [FrontOption.words, List.cons_append, List.singleton_append, Usage.scan_dashed rfl rfl (by decide),
      Usage.takeDashed_of_option hlevel]
    exact scan_level "--log-level" rfl values value rest
  | levelLetter versions value =>
    rw [FrontOption.words, List.cons_append, List.singleton_append,
      Usage.scan_letters (by simp) (by simp) (by simp)
      (isCommand_dashed _), takeDashed_levelLetter versions values rfl]
    exact scan_level "-L" rfl _ value rest

private theorem scan_frontWords (front : List FrontOption) (values : ProgramOptions) (rest : List String) :
    programUsage.scan (frontWords front ++ rest) { values } =
      front.foldlM FrontOption.give values >>= fun given => programUsage.scan rest { values := given } := by
  induction front generalizing values with
  | nil => rfl
  | cons o front ih =>
    rw [frontWords, List.flatMap_cons, List.append_assoc, scan_words, List.foldlM_cons, bind_assoc]
    exact congrArg _ (funext fun given => ih given)

/-! ### Reading in full -/

/-- A subcommand is reached with the values read so far, also behind the end of the options. -/
private theorem scan_command {name : String} (hname : programUsage.isCommand name = true)
    {divider : List String} (hdivider : divider = [] ∨ divider = ["--"]) (rest : List String)
    (values : ProgramOptions) :
    ∃ optionsOver, programUsage.scan (divider ++ name :: rest) { values } =
      .ok { values, optionsOver, command := some (name, rest) } := by
  rcases hdivider with rfl | rfl
  · refine ⟨false, ?_⟩
    rw [List.nil_append, Usage.scan]
    simp only [hname, if_true]
    rfl
  · refine ⟨true, ?_⟩
    show programUsage.scan (name :: rest) { values, optionsOver := true } = _
    rw [Usage.scan]
    simp only [hname, if_true]
    rfl

/-- A command line with a subcommand is read as its options say and then as the subcommand. -/
theorem invocation_frontWords (front : List FrontOption) {divider : List String}
    (hdivider : divider = [] ∨ divider = ["--"]) {name : String} (hname : programUsage.isCommand name = true)
    (rest : List String) :
    Invocation.read (frontWords front ++ (divider ++ name :: rest)) =
      (front.foldlM FrontOption.give {}).mapError .fault >>= fun given =>
        (Command.read name rest).map fun command =>
          { command, level := given.level, noColour := given.noColour } := by
  rw [Invocation.read, Usage.read, scan_frontWords]
  cases front.foldlM FrontOption.give {} with
  | error e => rfl
  | ok given =>
    obtain ⟨optionsOver, hreached⟩ := scan_command hname hdivider rest given
    have hscan : ((Except.ok given : Except UsageError ProgramOptions) >>=
        fun values => programUsage.scan (divider ++ name :: rest) { values }) = _ := hreached
    rw [hscan]
    show (Command.read name rest >>= _) = (Command.read name rest).map _
    cases Command.read name rest <;> rfl

/-- Without a subcommand a command line is at fault. -/
theorem invocation_frontWords_alone (front : List FrontOption) :
    ∃ e, Invocation.read (frontWords front) = .error (.fault e) := by
  rw [← List.append_nil (frontWords front), Invocation.read, Usage.read, scan_frontWords]
  cases front.foldlM FrontOption.give {} with
  | error e => exact ⟨e, rfl⟩
  | ok given => exact ⟨_, rfl⟩

/-- The values that decide how a command line is run. -/
def ProgramOptions.forgetVersion (values : ProgramOptions) : ProgramOptions :=
  { values with version := false }

private theorem give_forgetVersion (o : FrontOption) (values : ProgramOptions) :
    o.withoutVersion.foldlM FrontOption.give values.forgetVersion = (o.give values).map .forgetVersion := by
  have hlevel (spelling value : String) (version : Bool) :
      FrontOption.giveLevel spelling value values.forgetVersion =
        (FrontOption.giveLevel spelling value { values with version }).map .forgetVersion := by
    unfold FrontOption.giveLevel
    by_cases hgiven : values.level.isSome
    · simp only [ProgramOptions.forgetVersion, hgiven, if_true]
      rfl
    · simp only [ProgramOptions.forgetVersion, hgiven]
      cases Level.all.find? (·.name = value) <;> rfl
  cases o with
  | version | versionLetters more | noColour => rfl
  | level value => exact (bind_pure _).trans (hlevel "--log-level" value values.version)
  | levelLetter versions value =>
    exact (bind_pure _).trans (hlevel "-L" value _)

private theorem foldlM_withoutVersion (front : List FrontOption) (values : ProgramOptions) :
    (front.flatMap FrontOption.withoutVersion).foldlM FrontOption.give values.forgetVersion =
      (front.foldlM FrontOption.give values).map .forgetVersion := by
  induction front generalizing values with
  | nil => rfl
  | cons o front ih =>
    rw [List.flatMap_cons, List.foldlM_append, give_forgetVersion, List.foldlM_cons]
    cases o.give values with
    | error e => rfl
    | ok given => exact ih given

/-- In front of a subcommand the version switch does nothing. -/
theorem invocation_withoutVersion (front : List FrontOption) {divider : List String}
    (hdivider : divider = [] ∨ divider = ["--"]) {name : String} (hname : programUsage.isCommand name = true)
    (rest : List String) :
    Invocation.read (frontWords front ++ (divider ++ name :: rest)) =
      Invocation.read (frontWords (front.flatMap FrontOption.withoutVersion) ++
        (divider ++ name :: rest)) := by
  have hforgotten : (front.flatMap FrontOption.withoutVersion).foldlM FrontOption.give {} =
      (front.foldlM FrontOption.give {}).map .forgetVersion := foldlM_withoutVersion front {}
  rw [invocation_frontWords front hdivider hname, invocation_frontWords _ hdivider hname, hforgotten]
  cases front.foldlM FrontOption.give {} <;> rfl

end BootImage
