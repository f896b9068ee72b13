import BootImage.Command.Assemble
import BootImage.Command.Info
import BootImage.Proofs.AtomicWrite
import BootImage.Proofs.Lines
import BootImage.Proofs.RoundTrip

/-!
# The command that assembles an image, as a whole

* (inputs) What the command finds out before it writes is what the input files describe:
  `AssembleArguments.result_planned_eq_ok_iff`.
* (the run) A run reads, plans, and writes the image atomically, if there is one: `AssembleArguments.run_eq`.
  The sizes of the memories are for the report alone (`AssembleArguments.run_sizes`).
* (all or nothing) `AssembleArguments.run_all_or_nothing` puts this together with what is known of atomic
  writes and of decoding an assembled image.
-/

namespace BootImage

private theorem bind_eq_ok_iff {ε α β : Type} {x : Except ε α} {f : α → Except ε β} {b : β} :
    (x >>= f) = .ok b ↔ ∃ a, x = .ok a ∧ f a = .ok b := by
  cases x with
  | error e => simp [bind, Except.bind]
  | ok a => simp [bind, Except.bind]

private theorem ite_error_eq_ok_iff {ε α : Type} {c : Prop} [Decidable c] {e : ε} {x : Except ε α} {a : α} :
    (if c then .error e else x) = .ok a ↔ ¬c ∧ x = .ok a := by
  by_cases hc : c
  · simp [hc]
  · simp [hc]

/-- The image of a program is found sound. -/
private theorem failure_inspect_of_assemble {layout : Layout} {text rodata : Bytes} {done : CompleteImage}
    (h : assemble layout text rodata = .ok done) (p : Path) :
    (inspect p (.ok done.contents)).failure = none := by
  obtain ⟨hfits, rfl⟩ := assemble_eq_ok_iff.1 h
  have hverify : (layout.image text rodata).verify = .ok () := Image.verify_closed _ _
  simp only [inspect, layout.decode_image hfits, hverify]

namespace AssembleArguments

open FileTree FileAccess

variable {a : AssembleArguments} {tag : String} {t after : FileTree} {layout : Layout} {done : CompleteImage}

def planned (a : AssembleArguments) (t : FileTree) : Logged Failure (Layout × CompleteImage) :=
  a.plan (t.read a.symbols) (t.read a.text) (t.read a.rodata)

/-- The input files are there, and they describe the layout and the image. -/
def Describes (a : AssembleArguments) (t : FileTree) (layout : Layout) (done : CompleteImage) : Prop :=
  ∃ listing table text rodata, t.read a.symbols = .ok listing ∧ Listing.table listing = .ok table ∧
    table.isEmpty = false ∧ Layout.ofTable a.policy table = .ok layout ∧ t.read a.text = .ok text ∧
    t.read a.rodata = .ok rodata ∧ assemble layout text rodata = .ok done

private theorem readLayout_eq_ok_iff {listing : Except ReadFailure Bytes} :
    (a.readLayout listing).result = .ok layout ↔ ∃ bytes table, listing = .ok bytes ∧
      Listing.table bytes = .ok table ∧ table.isEmpty = false ∧
      Layout.ofTable a.policy table = .ok layout := by
  simp only [readLayout, apply_ite Logged.result, Logged.result_bind, Logged.result_ofResult,
    Logged.result_emit, Logged.result_note, bind_eq_ok_iff, ite_error_eq_ok_iff, mapError_eq_ok_iff,
    Bool.not_eq_true]
  constructor
  · rintro ⟨bytes, hlisting, -, -, table, htable, hempty, -, -, -, -, hlayout⟩
    exact ⟨bytes, table, hlisting, htable, hempty, hlayout⟩
  · rintro ⟨bytes, table, hlisting, htable, hempty, hlayout⟩
    exact ⟨bytes, hlisting, (), trivial, table, htable, hempty, (), trivial, (), trivial, hlayout⟩

theorem result_planned_eq_ok_iff :
    (a.planned t).result = .ok (layout, done) ↔ a.Describes t layout done := by
  simp only [planned, plan, Describes, Logged.result_bind, Logged.result_during, Logged.result_note,
    Logged.result_ofResult, Logged.result_pure, bind_eq_ok_iff, mapError_eq_ok_iff, readLayout_eq_ok_iff,
    result_assembleLogged, Except.ok.injEq, Prod.mk.injEq]
  constructor
  · rintro ⟨layout, ⟨listing, table, hlisting, htable, hempty, hlayout⟩, -, -, text, htext, rodata,
      hrodata, done, hdone, rfl, rfl⟩
    exact ⟨listing, table, text, rodata, hlisting, htable, hempty, hlayout, htext, hrodata, hdone⟩
  · rintro ⟨listing, table, text, rodata, hlisting, htable, hempty, hlayout, htext, hrodata, hdone⟩
    exact ⟨layout, ⟨listing, table, hlisting, htable, hempty, hlayout⟩, (), trivial, text, htext, rodata,
      hrodata, done, hdone, rfl, rfl⟩

theorem run_eq (a : AssembleArguments) (tag : String) (t : FileTree) :
    (a.run tag : StateM FileTree Outcome).run t =
      match (a.planned t).result with
      | .error e => ({ events := (a.planned t).events, failure := some e }, t)
      | .ok (layout, image) =>
        match (writeAtomically tag a.out image.contents : StateM FileTree _).run t with
        | (.error e, after) => ({ events := (a.planned t).events, failure := some (.write e) }, after)
        | (.ok (), after) =>
          ({ events := (a.planned t).events ++ (a.conclude layout image).1,
             output := (a.conclude layout image).2 }, after) := by
  rw [run, run_bind, run_bind, run_bind]
  show (match (a.planned t).result with
    | .error e => _
    | .ok (layout, image) => _ : StateM FileTree Outcome).run t = _
  cases (a.planned t).result with
  | error e => rfl
  | ok found =>
    rw [run_bind]
    dsimp only
    rcases (writeAtomically tag a.out found.2.contents : StateM FileTree _).run t with ⟨_ | _, after⟩ <;> rfl

/-- The sizes of the memories have no influence on the files. -/
theorem run_sizes (a : AssembleArguments) (sizes : MemorySizes) (tag : String) (t : FileTree) :
    ((({ a with sizes } : AssembleArguments).run tag : StateM FileTree Outcome).run t).2 =
      ((a.run tag : StateM FileTree Outcome).run t).2 := by
  have hplanned : ({ a with sizes } : AssembleArguments).planned t = a.planned t := rfl
  rw [run_eq, run_eq, hplanned]
  rcases (a.planned t).result with e | ⟨layout, image⟩
  · rfl
  · dsimp only
    rcases (writeAtomically tag a.out image.contents : StateM FileTree _).run t with ⟨_ | _, after⟩ <;> rfl

/-- Inspecting a file that holds the image of a program succeeds and changes nothing. -/
private theorem run_info {location : Location} (hdescribes : a.Describes t layout done)
    (hlookup : after.lookup a.out = .ok (location, .file done.contents)) :
    ∃ shown, (runInfo a.out : StateM FileTree Outcome).run after = (shown, after) ∧ shown.failure = none := by
  obtain ⟨listing, table, text, rodata, -, -, -, -, -, -, hdone⟩ := hdescribes
  have hread : after.read a.out = .ok done.contents := by rw [FileTree.read, hlookup]
  refine ⟨inspect a.out (after.read a.out), rfl, ?_⟩
  rw [hread]
  exact failure_inspect_of_assemble hdone a.out

/-- If the command succeeds, the image that the input files described before is at its path, and found sound
there; if it fails, nothing is printed and nothing that was there has changed.  In both cases the directories
above the path are all that is new. -/
theorem run_all_or_nothing (hvacant : ∀ temporary, a.out.temporary? tag = some temporary → t.Vacant temporary)
    {outcome : Outcome} (hrun : (a.run tag : StateM FileTree Outcome).run t = (outcome, after)) :
    (outcome.failure = none → ∃ layout done location, a.Describes t layout done ∧
        after.lookup a.out = .ok (location, .file done.contents) ∧
        Grows a.out.directories {location} t after ∧
        (∀ temporary, a.out.temporary? tag = some temporary → after.NoFile temporary) ∧
        outcome.output = (MemoryUsage.ofBounds layout.bounds a.sizes).styled ++ [.plain "\n"] ∧
        (∀ sizes,
          ((({ a with sizes } : AssembleArguments).run tag : StateM FileTree Outcome).run t).2 = after) ∧
        ∃ shown, (runInfo a.out : StateM FileTree Outcome).run after = (shown, after) ∧
          shown.failure = none) ∧
      ∀ failure, outcome.failure = some failure → Grows a.out.directories ∅ t after ∧
        outcome.output = [] := by
  have hsizes : ∀ sizes,
      ((({ a with sizes } : AssembleArguments).run tag : StateM FileTree Outcome).run t).2 = after := by
    intro sizes
    rw [run_sizes, hrun]
  rw [run_eq] at hrun
  rcases hplanned : (a.planned t).result with e | ⟨layout, done⟩
  -- a plan that fails does so before anything is written
  · rw [hplanned] at hrun
    cases hrun
    exact ⟨by simp, fun _ _ => ⟨.refl _ _ _, rfl⟩⟩
  · rw [hplanned] at hrun
    have hdescribes := result_planned_eq_ok_iff.1 hplanned
    rcases hwrite : (writeAtomically tag a.out done.contents : StateM FileTree _).run t with ⟨result, left⟩
    cases result with
    | error e =>
      simp only [hwrite] at hrun
      cases hrun
      exact ⟨by simp, fun _ _ => ⟨grows_of_error hvacant hwrite rfl, rfl⟩⟩
    | ok =>
      simp only [hwrite] at hrun
      cases hrun
      obtain ⟨location, hlookup, hgrows⟩ := grows_of_ok hvacant hwrite rfl
      refine ⟨fun _ => ⟨layout, done, location, hdescribes, hlookup, hgrows, ?_, rfl, hsizes, ?_⟩, by simp⟩
      · exact fun _ => noFile_temporary hvacant hwrite
      · exact run_info hdescribes hlookup

/-- The image takes the place of one of the inputs. -/
theorem run_all_or_nothing_in_place :
    let listing := "100 T bootloader_main\n1000 A _text_start\n1005 A _text_end\n2003 A _rodata_end\n" ++
      "2004 A _bss_start\n"
    let t : FileTree := ((({} : FileTree).put ["app.sym"] (.file listing.toUTF8.toList)).put ["app.bin"]
      (.file [1, 2, 3, 4, 5])).put ["rodata.bin"] (.file [])
    let a : AssembleArguments :=
      { symbols := ⟨.bare, ["app.sym"]⟩, text := ⟨.bare, ["app.bin"]⟩, rodata := ⟨.bare, ["rodata.bin"]⟩
        out := ⟨.bare, ["app.bin"]⟩, policy := .legacy }
    (∀ temporary, a.out.temporary? "7" = some temporary → t.Vacant temporary) ∧
      ∃ outcome after, (a.run "7" : StateM FileTree Outcome).run t = (outcome, after) ∧
        outcome.failure = none ∧
        ∃ layout done location, a.Describes t layout done ∧
          after.lookup a.out = .ok (location, .file done.contents) ∧
          Grows a.out.directories {location} t after := by
  intro listing t a
  have hlookup : t.lookup ⟨.bare, ["app.bin.7.tmp"]⟩ = .error (.system .notFound) := by rfl
  have hfailure : ((a.run "7" : StateM FileTree Outcome).run t).1.failure = none := by
    revert a t listing
    decide +kernel
  have hvacant : ∀ temporary, a.out.temporary? "7" = some temporary → t.Vacant temporary := by
    have hsibling : a.out.temporary? "7" = some ⟨.bare, ["app.bin.7.tmp"]⟩ := by decide
    rw [hsibling]
    rintro _ ⟨⟩
    exact .of_lookup hlookup rfl
  rcases hrun : (a.run "7" : StateM FileTree Outcome).run t with ⟨outcome, after⟩
  rw [hrun] at hfailure
  obtain ⟨layout, done, location, hdescribes, hlookup, hgrows, -⟩ :=
    (run_all_or_nothing hvacant hrun).1 hfailure
  exact ⟨hvacant, outcome, after, rfl, hfailure, layout, done, location, hdescribes, hlookup, hgrows⟩

end AssembleArguments

end BootImage
