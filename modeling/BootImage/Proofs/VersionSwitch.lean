import BootImage.Proofs.Switches

/-!
# The version switch

A command line is read twice: once as nothing but version switches, and then in full.

* (version alone) The first reading accepts version switches only, and at the end a `--`:
  `request_eq_version_iff`.
* (subcommands) So a command line that names a subcommand is run, and a switch in front of it does nothing:
  `request_of_invocation`.  `runProgram_version` puts this together.
-/

namespace BootImage

theorem IsSwitch.isCommand {a : String} (ha : IsSwitch a ∨ a ∈ asides) :
    programUsage.isCommand a = false := by
  rcases ha with ha | ha
  · obtain ⟨⟨letters, hletters⟩, -⟩ := ha.dashed
    rw [← String.ofList_toList (s := a), hletters]
    exact isCommand_dashed letters
  · exact (by decide : ∀ a ∈ asides, programUsage.isCommand a = false) a ha

/-- Neither switches nor requests for help are a subcommand or wait for a value. -/
private theorem takeArgument_programUsage {a : String} (ha : IsSwitch a ∨ a ∈ asides)
    {t t' : Scan ProgramOptions} (h : programUsage.takeArgument a t = .ok t') :
    t'.pending = t.pending ∧ t'.command = t.command := by
  obtain ⟨-, ⟨-, request, rfl⟩ | ⟨-, rfl⟩ | ⟨hother, hdashed⟩⟩ := Usage.takeArgument_cases rfl h
  · exact ⟨rfl, rfl⟩
  · exact ⟨rfl, rfl⟩
  · obtain ⟨n, hn⟩ := Usage.takeDashed_of_isSwitch rfl option?_version (ha.resolve_right hother) t
    rw [hn] at hdashed
    cases hdashed
    exact ⟨rfl, rfl⟩

/-- What the first reading accepts names no subcommand. -/
private theorem command_eq_of_scan {arguments : List String} (ha : ∀ a ∈ arguments, IsSwitch a ∨ a ∈ asides)
    {t t' : Scan ProgramOptions} (ht : t.pending = none) (h : programUsage.scan arguments t = .ok t') :
    t'.command = t.command := by
  induction arguments generalizing t with
  | nil =>
    rw [Usage.scan, ht] at h
    cases h
    rfl
  | cons a rest ih =>
    rw [List.forall_mem_cons] at ha
    obtain ⟨next, hnext, hrest⟩ := Usage.exists_of_scan_cons ht (IsSwitch.isCommand ha.1) h
    obtain ⟨hpending, hcommand⟩ := takeArgument_programUsage ha.1 hnext
    rw [← hcommand]
    exact ih ha.2 (hpending.trans ht) hrest

/-- A command line is complete if a subcommand was reached, or if there is none and no help was asked for. -/
private theorem Usage.of_read_eq_ok {σ : Type} {u : Usage σ} {initial : σ} {arguments : List String}
    {s : Scan σ} (h : u.read initial arguments = .ok s) :
    u.scan arguments { values := initial } = .ok s ∧
      (s.command.isSome ∨ s.help = none ∧ u.commands.isEmpty = true) := by
  rw [read] at h
  cases hscan : u.scan arguments { values := initial } with
  | error e =>
    rw [hscan] at h
    contradiction
  | ok t =>
    rw [hscan] at h
    simp only at h
    split at h
    · rename_i hcommand
      cases h
      exact ⟨rfl, .inl hcommand⟩
    split at h
    · contradiction
    rename_i hhelp
    split at h
    · contradiction
    split at h
    · rename_i hempty
      cases h
      exact ⟨rfl, .inr ⟨Option.not_isSome_iff_eq_none.1 hhelp, hempty⟩⟩
    · contradiction

/-- A command line that is read in full has a subcommand. -/
private theorem scan_of_invocation {arguments : List String} {i : Invocation}
    (h : Invocation.read arguments = .ok i) :
    ∃ t, programUsage.scan arguments { values := {} } = .ok t ∧ t.command.isSome := by
  rw [Invocation.read] at h
  cases hread : programUsage.read {} arguments with
  | error e =>
    rw [hread] at h
    contradiction
  | ok t =>
    obtain ⟨hscan, hcommand | ⟨-, hempty⟩⟩ := Usage.of_read_eq_ok hread
    · exact ⟨t, hscan, hcommand⟩
    · contradiction

/-- So the first reading refuses it. -/
private theorem scan_versionUsage_of_invocation {arguments : List String} {i : Invocation}
    (h : Invocation.read arguments = .ok i) :
    ∃ e, versionUsage.scan arguments { values := false } = .error e := by
  cases hversion : versionUsage.scan arguments { values := false } with
  | error e => exact ⟨e, rfl⟩
  | ok s =>
    obtain ⟨-, -, hmem⟩ := scan_versionUsage rfl hversion
    obtain ⟨t, ht, hcommand⟩ := scan_of_invocation h
    rw [command_eq_of_scan hmem rfl ht] at hcommand
    contradiction

private theorem request_of_refused {arguments : List String} {e : UsageError}
    (h : versionUsage.scan arguments { values := false } = .error e) :
    Request.read arguments = (Invocation.read arguments).map .run := by
  rw [Request.read, Usage.read, h]

/-- A command line that can be run is run, whether or not it has a version switch. -/
theorem request_of_invocation {arguments : List String} {i : Invocation}
    (h : Invocation.read arguments = .ok i) :
    Request.read arguments = .ok (.run i) := by
  obtain ⟨e, he⟩ := scan_versionUsage_of_invocation h
  rw [request_of_refused he, h]
  rfl

private theorem map_run_ne_version (read : Except Stop Invocation) : read.map Request.run ≠ .ok .version := by
  cases read <;> simp [Except.map]

/-- Version switches are read as a request for the version, with or without the end of the options. -/
private theorem request_of_isVersion {front : List FrontOption} (hne : front ≠ [])
    (hfront : ∀ o ∈ front, o.IsVersion) {rest : List String} (hrest : rest = [] ∨ rest = ["--"]) :
    Request.read (frontWords front ++ rest) = .ok .version := by
  rw [Request.read, Usage.read, scan_versionUsage_front hfront, List.isEmpty_eq_false_iff.2 hne]
  rcases hrest with rfl | rfl <;> rfl

/-- The version is asked for by a command line of nothing but version switches. -/
theorem request_eq_version_iff {arguments : List String} :
    Request.read arguments = .ok .version ↔ ∃ front : List FrontOption, front ≠ [] ∧
      (∀ o ∈ front, o.IsVersion) ∧
      (arguments = frontWords front ∨ arguments = frontWords front ++ ["--"]) := by
  constructor
  · intro h
    rw [Request.read] at h
    -- if the first reading fails or sees no switch, the second decides, which never asks for the version
    cases hread : versionUsage.read false arguments with
    | error stop =>
      rw [hread] at h
      cases stop with
      | help text => contradiction
      | fault e => exact absurd h (map_run_ne_version _)
    | ok s =>
      rw [hread] at h
      obtain ⟨hscan, hend⟩ := Usage.of_read_eq_ok hread
      have hhelp : s.help = none := by
        rcases hend with hcommand | ⟨hhelp, -⟩
        · rw [(scan_versionUsage rfl hscan).1] at hcommand
          contradiction
        · exact hhelp
      obtain ⟨front, hfront, hwords, hvalues⟩ := exists_front_of_scan hscan hhelp
      refine ⟨front, ?_, hfront, hwords⟩
      rintro rfl
      simp only [hvalues] at h
      exact map_run_ne_version _ h
  · rintro ⟨front, hne, hfront, rfl | rfl⟩
    · rw [← List.append_nil (frontWords front)]
      exact request_of_isVersion hne hfront (.inl rfl)
    · exact request_of_isVersion hne hfront (.inr rfl)

/-- Options without a subcommand, not all of which are version switches, are at fault. -/
private theorem request_of_refused_alone {front : List FrontOption} (hfront : ∃ o ∈ front, ¬o.IsVersion) :
    ∃ e, Request.read (frontWords front) = .error (.fault e) := by
  obtain ⟨_, hrefused⟩ := scan_versionUsage_refused hfront false
  obtain ⟨e, he⟩ := invocation_frontWords_alone front
  exact ⟨e, by rw [request_of_refused hrefused, he]; rfl⟩

/-- Who asks for the version gets it only if the command line says nothing else.  A command line with a
subcommand that can be read is run, and a version switch in front of the subcommand does nothing.  Without a
subcommand and without requests for help, version switches by themselves print the version, and with other
options they are at fault. -/
theorem runProgram_version (tag : String) (e : Environment) (t : FileTree) :
    (∀ (arguments : List String) (i : Invocation), Invocation.read arguments = .ok i →
      (runProgram tag e arguments : StateM FileTree Termination).run t =
        Prod.map (·.render (i.presentation e)) id ((i.command.run tag : StateM FileTree Outcome).run t)) ∧
    (∀ (front : List FrontOption) (divider : List String) (name : String) (rest : List String),
      divider = [] ∨ divider = ["--"] → programUsage.isCommand name = true →
      Invocation.read (frontWords front ++ (divider ++ name :: rest)) =
        Invocation.read (frontWords (front.flatMap FrontOption.withoutVersion) ++
          (divider ++ name :: rest))) ∧
    (∀ front : List FrontOption, (∃ o ∈ front, o.GivesVersion) →
      ((∀ o ∈ front, o.IsVersion) →
        (runProgram tag e (frontWords front) : StateM FileTree Termination).run t =
        (⟨0, versionText ++ "\n", ""⟩, t)) ∧
      ((∃ o ∈ front, ¬o.IsVersion) → ∃ errors,
        (runProgram tag e (frontWords front) : StateM FileTree Termination).run t = (⟨1, "", errors⟩, t))) ∧
    ∀ arguments : List String, Request.read arguments = .ok .version ↔
      ∃ front : List FrontOption, front ≠ [] ∧ (∀ o ∈ front, o.IsVersion) ∧
        (arguments = frontWords front ∨ arguments = frontWords front ++ ["--"]) := by
  refine ⟨?_, ?_, ?_, fun arguments => request_eq_version_iff⟩
  · intro arguments i h
    rw [runProgram, request_of_invocation h]
    rfl
  · intro front divider name rest hdivider hname
    exact invocation_withoutVersion front hdivider hname rest
  · rintro front ⟨o, ho, -⟩
    constructor
    · intro hfront
      have hrequest := request_of_isVersion (List.ne_nil_of_mem ho) hfront (.inl rfl)
      rw [List.append_nil] at hrequest
      rw [runProgram, hrequest]
      rfl
    · intro hfront
      obtain ⟨error, hrequest⟩ := request_of_refused_alone hfront
      refine ⟨s!"{error.message}\nRun {programName} --help for more information.\n", ?_⟩
      rw [runProgram, hrequest]
      rfl

/-- Switches by themselves, beside another option, and in front of a subcommand. -/
theorem runProgram_version_forms :
    (runProgram "7" {} ["-VV", "--version"] : StateM FileTree Termination).run {} =
      (⟨0, versionText ++ "\n", ""⟩, {}) ∧
    (∃ errors, (runProgram "7" {} ["--no-color", "-V"] : StateM FileTree Termination).run {} =
      (⟨1, "", errors⟩, {})) ∧
    (runProgram "7" {} ["-V", "info", "i.bin"] : StateM FileTree Termination).run {} =
      Prod.map (·.render (Invocation.presentation { command := .info ⟨.bare, ["i.bin"]⟩ } {})) id
        (((Command.info ⟨.bare, ["i.bin"]⟩).run "7" : StateM FileTree Outcome).run {}) ∧
    Invocation.read ["-VL", "debug", "--version", "--", "info", "i.bin"] =
      Invocation.read ["-L", "debug", "--", "info", "i.bin"] ∧
    Request.read ["--version", "--"] = .ok .version := by
  obtain ⟨hruns, hsilent, halone, hexactly⟩ := runProgram_version "7" {} {}
  have hread : Invocation.read ["-V", "info", "i.bin"] = .ok { command := .info ⟨.bare, ["i.bin"]⟩ } := by cbv
  refine ⟨?_, ?_, hruns _ _ hread, ?_, ?_⟩
  · exact (halone [.versionLetters 1, .version] ⟨.version, by decide, trivial⟩).1 (by decide)
  · exact (halone [.noColour, .versionLetters 0] ⟨.versionLetters 0, by decide, trivial⟩).2 (by decide)
  · exact hsilent [.levelLetter 1 "debug", .version] ["--"] "info" ["i.bin"] (.inr rfl) rfl
  · exact (hexactly ["--version", "--"]).2 ⟨[.version], by decide, by decide, .inr rfl⟩

/-- With the switch in front of a subcommand a file is replaced, and with another option beside it the program
fails. -/
theorem runProgram_version_ignored :
    let listing := "100 T bootloader_main\n1000 A _text_start\n1005 A _text_end\n2003 A _rodata_end\n" ++
      "2004 A _bss_start\n"
    let t : FileTree := ((({} : FileTree).put ["app.sym"] (.file listing.toUTF8.toList)).put ["app.bin"]
      (.file [1, 2, 3, 4, 5])).put ["rodata.bin"] (.file [])
    let arguments := ["-V", "assemble", "--legacy-symbols", "app.sym", "app.bin", "rodata.bin", "app.bin"]
    let a : AssembleArguments :=
      { symbols := ⟨.bare, ["app.sym"]⟩, text := ⟨.bare, ["app.bin"]⟩, rodata := ⟨.bare, ["rodata.bin"]⟩
        out := ⟨.bare, ["app.bin"]⟩, policy := .legacy }
    let assembled := (runProgram "7" {} arguments : StateM FileTree Termination).run t
    let refused := (runProgram "7" {} ["-V", "--no-color"] : StateM FileTree Termination).run t
    (Invocation.read arguments).toOption.map (·.command) = some (.assemble a) ∧
      assembled.1.output ≠ versionText ++ "\n" ∧ assembled.2.get? ["app.bin"] ≠ t.get? ["app.bin"] ∧
      refused.1.output ≠ versionText ++ "\n" ∧ refused.1.exitCode = 1 := by
  decide +kernel

end BootImage
