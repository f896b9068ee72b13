import Mathlib
import BootImage.Command.Program
import BootImage.Proofs.Texts

/-!
# Presentation

The environment and the program's own options decide how events and texts are shown, and nothing else.

* (texts) No text that is printed has an escape character of its own: `MemoryUsage.escapeFree_styled`,
  `Image.escapeFree_summary`.  So colours can be dropped from what is printed.
* (commands) Whatever happens to the files, what a command prints is such a text: `Command.satisfiesM_run`.
* (runs) In any monad with file access, a run has the effects of its command, and its exit code and text
  without colours are those of the command's outcome: `seen_runProgram`.  So two runs of one command agree:
  `runProgram_agree`.
-/

namespace BootImage

/-! ### Texts without escapes -/

@[simp] private theorem escapeFree_append (a b : String) :
    EscapeFree (a ++ b) ↔ EscapeFree a ∧ EscapeFree b := by
  simp only [EscapeFree, String.toList_append, List.mem_append, not_or]

@[simp] private theorem escapeFree_toString (text : String) :
    EscapeFree (toString text) ↔ EscapeFree text := Iff.rfl

private theorem escapeFree_join {texts : List String} :
    EscapeFree (String.join texts) ↔ ∀ text ∈ texts, EscapeFree text := by
  simp only [EscapeFree, String.toList_join, List.mem_flatMap, not_exists, not_and]

private theorem digitChar_ne_escape (d : Nat) :
    Nat.digitChar d ≠ '\x1b' := Nat.digitChar_ne '\x1b' (by decide)

@[simp] private theorem escapeFree_repr (n : Nat) : EscapeFree n.repr := not_mem_repr digitChar_ne_escape n

@[simp] private theorem escapeFree_byte (b : UInt8) : EscapeFree (toString b) := escapeFree_repr b.toNat

@[simp] private theorem escapeFree_hexNumber (width n : Nat) : EscapeFree (hexNumber width n) :=
  not_mem_hexNumber digitChar_ne_escape (by decide) (by decide) width n

@[simp] private theorem escapeFree_hexSize (n : Nat) : EscapeFree (hexSize n) := escapeFree_hexNumber 1 n

@[simp] private theorem escapeFree_hexByte (b : UInt8) :
    EscapeFree (hexByte b) := escapeFree_hexNumber 2 b.toNat

@[simp] private theorem escapeFree_hexAddress (a : UInt32) :
    EscapeFree (hexAddress a) := escapeFree_hexNumber 8 a.toNat

private theorem Sha1.escapeFree_hexDigest (message : Bytes) : EscapeFree (hexDigest message) := by
  rw [EscapeFree, hexDigest, String.toList_ofList, List.mem_flatMap]
  rintro ⟨w, -, hw⟩
  exact not_mem_hexDigits digitChar_ne_escape 8 w.toNat hw

@[simp] private theorem Styled.escapeFree_nil : Styled.EscapeFree [] := fun _ h => absurd h List.not_mem_nil

@[simp] private theorem Styled.escapeFree_cons (s : Span) (t : Styled) :
    Styled.EscapeFree (s :: t) ↔ BootImage.EscapeFree s.text ∧ t.EscapeFree := List.forall_mem_cons

@[simp] private theorem Styled.escapeFree_append (a b : Styled) :
    Styled.EscapeFree (a ++ b) ↔ a.EscapeFree ∧ b.EscapeFree := List.forall_mem_append

namespace MemoryUsage

private theorem escapeFree_lengthSpan (length : Int) : EscapeFree (lengthSpan length).text := by
  rw [lengthSpan]
  split
  · decide
  · simp +decide [Span.plain]

private theorem escapeFree_amountSpan (amount : Option Int) : EscapeFree (amountSpan amount).text := by
  cases amount with
  | none => decide
  | some n =>
    rw [amountSpan]
    split <;> simp +decide [Span.plain]

private theorem escapeFree_memoryLine {name : String} (h : EscapeFree name) (used free : Option Int) :
    (memoryLine name used free).EscapeFree := by
  simp +decide [memoryLine, Span.plain, h, escapeFree_amountSpan]

theorem escapeFree_styled (u : MemoryUsage) : u.styled.EscapeFree := by
  have hsram : EscapeFree "SRAM" := by decide
  have hiram : EscapeFree "IRAM" := by decide
  simp +decide [styled, Span.plain, escapeFree_lengthSpan, escapeFree_memoryLine hsram,
    escapeFree_memoryLine hiram]

end MemoryUsage

namespace Image

private theorem escapeFree_segmentLines (i : Image) : EscapeFree i.segmentLines := by
  rw [segmentLines, escapeFree_join]
  intro line hline
  obtain ⟨⟨⟨offset, s⟩, number⟩, -, rfl⟩ := List.mem_map.1 hline
  simp +decide

private theorem escapeFree_checksumSpan (i : Image) : EscapeFree i.checksumSpan.text := by
  rw [checksumSpan]
  split
  · decide
  · simp +decide

theorem escapeFree_summary (i : Image) : i.summary.EscapeFree := by
  simp +decide [summary, Span.plain, escapeFree_segmentLines, escapeFree_checksumSpan]

end Image

/-! ### Outcomes -/

/-- What is sure to be seen of a run: its exit code, and its output without colours. -/
def Termination.seen (t : Termination) : UInt32 × List Char := (t.exitCode, dropRenditions t.output.toList)

def Outcome.seen (o : Outcome) : UInt32 × List Char :=
  (o.failure.elim 0 Failure.exitCode, (o.output.render false).toList)

private theorem Outcome.seen_render {o : Outcome} (h : o.output.EscapeFree) (p : Presentation) :
    (o.render p).seen = o.seen := by
  rw [Outcome.render, Outcome.seen]
  cases o.failure <;> simp [Termination.seen, h.dropRenditions_render]

private theorem escapeFree_inspect (path : Path) (contents : Except ReadFailure Bytes) :
    (inspect path contents).output.EscapeFree := by
  cases contents with
  | error e => exact Styled.escapeFree_nil
  | ok bytes =>
    rw [inspect]
    cases Image.decode bytes with
    | error e => exact Styled.escapeFree_nil
    | ok image => simp +decide [Span.plain, image.escapeFree_summary, Sha1.escapeFree_hexDigest]

private theorem AssembleArguments.escapeFree_conclude (a : AssembleArguments) (layout : Layout)
    (image : CompleteImage) :
    (a.conclude layout image).2.EscapeFree := by
  simp +decide [conclude, Span.plain, MemoryUsage.escapeFree_styled]

/-! ### Runs -/

section Runs

variable {m : Type → Type} [Monad m] [LawfulMonad m]

private theorem map_congr_of_satisfiesM {α β : Type} {P : α → Prop} {x : m α} {f g : α → β}
    (hx : SatisfiesM P x) (h : ∀ a, P a → f a = g a) : f <$> x = g <$> x := by
  obtain ⟨y, rfl⟩ := hx
  have hfun : (f ∘ Subtype.val : {a // P a} → β) = g ∘ Subtype.val := funext fun a => h a.1 a.2
  rw [← comp_map, ← comp_map, hfun]

variable [FileAccess m]

theorem AssembleArguments.satisfiesM_run (a : AssembleArguments) (tag : String) :
    SatisfiesM (fun o => o.output.EscapeFree) (a.run tag : m Outcome) := by
  rw [AssembleArguments.run]
  refine SatisfiesM.trivial.bind fun listing _ => SatisfiesM.trivial.bind fun text _ =>
    SatisfiesM.trivial.bind fun rodata _ => ?_
  dsimp only
  cases (a.plan listing text rodata).result with
  | error e => exact .pure Styled.escapeFree_nil
  | ok found =>
    refine SatisfiesM.trivial.bind fun written _ => ?_
    cases written with
    | error e => exact .pure Styled.escapeFree_nil
    | ok => exact .pure (a.escapeFree_conclude found.1 found.2)

theorem Command.satisfiesM_run (c : Command) (tag : String) :
    SatisfiesM (fun o => o.output.EscapeFree) (c.run tag : m Outcome) := by
  cases c with
  | assemble a => exact a.satisfiesM_run tag
  | info path => exact SatisfiesM.trivial.bind fun contents _ => .pure (escapeFree_inspect path contents)

/-- A run has the effects of its command, and what is sure to be seen of it is what the command's outcome
says. -/
theorem seen_runProgram {arguments : List String} {i : Invocation} (h : Request.read arguments = .ok (.run i))
    (tag : String) (e : Environment) :
    Termination.seen <$> (runProgram tag e arguments : m Termination) =
      Outcome.seen <$> (i.command.run tag : m Outcome) := by
  have hrun : (runProgram tag e arguments : m Termination) = (·.render (i.presentation e)) <$>
      i.command.run tag := by
    rw [runProgram, h]
    exact bind_pure_comp _ _
  rw [hrun, ← comp_map]
  exact map_congr_of_satisfiesM (i.command.satisfiesM_run tag) fun o ho => o.seen_render ho (i.presentation e)

end Runs

/-- Two runs of one command, presented in any way, have the same exit code, leave the same files, and print
the same text but for its colours.  Colours can be dropped from every report and every summary. -/
theorem runProgram_agree {arguments arguments' : List String} {i i' : Invocation}
    (h : Request.read arguments = .ok (.run i)) (h' : Request.read arguments' = .ok (.run i'))
    (hcommand : i.command = i'.command) :
    (∀ (tag : String) (e e' : Environment) (t : FileTree), ∃ after shown shown',
      (runProgram tag e arguments : StateM FileTree Termination).run t = (shown, after) ∧
      (runProgram tag e' arguments' : StateM FileTree Termination).run t = (shown', after) ∧
      shown.exitCode = shown'.exitCode ∧
      dropRenditions shown.output.toList = dropRenditions shown'.output.toList) ∧
      (∀ u : MemoryUsage, dropRenditions (u.styled.render true).toList = (u.styled.render false).toList) ∧
      ∀ image : Image, dropRenditions (image.summary.render true).toList =
        (image.summary.render false).toList := by
  refine ⟨?_, fun u => u.escapeFree_styled.dropRenditions_render true,
    fun image => image.escapeFree_summary.dropRenditions_render true⟩
  intro tag e e' t
  have hseen : Termination.seen <$> (runProgram tag e arguments : StateM FileTree Termination) =
      Termination.seen <$> runProgram tag e' arguments' := by
    rw [seen_runProgram h, seen_runProgram h', hcommand]
  rcases hrun : (runProgram tag e arguments : StateM FileTree Termination).run t with ⟨shown, after⟩
  rcases hrun' : (runProgram tag e' arguments' : StateM FileTree Termination).run t with ⟨shown', after'⟩
  have hpair : (shown.seen, after) = (shown'.seen, after') := by
    have hmap := congrArg (StateT.run · t) hseen
    simp only [StateT.run_map, hrun, hrun'] at hmap
    exact hmap
  obtain ⟨hsame, rfl⟩ := Prod.mk.inj hpair
  obtain ⟨hexit, houtput⟩ := Prod.mk.inj hsame
  exact ⟨after, shown, shown', rfl, rfl, hexit, houtput⟩

/-- A sound image is inspected in colour with all its events, and once more without. -/
theorem runProgram_agree_info :
    let image : Bytes :=
      [0xE9, 1, 0, 0, 0, 1, 0, 0x40, 0, 0, 0, 0x40, 4, 0, 0, 0, 1, 2, 3, 4, 0, 0, 0, 0, 0, 0, 0, 0, 0,
        0, 0, 0xEB]
    let t : FileTree := ({} : FileTree).put ["i.bin"] (.file image)
    ∃ after shown shown',
      (runProgram "7" { forceColour := some "" } ["-L", "trace", "info", "i.bin"] :
          StateM FileTree Termination).run t =
        (shown, after) ∧
      (runProgram "7" { log := some "off" } ["--no-color", "info", "i.bin"] : StateM FileTree Termination).run
        t =
        (shown', after) ∧
      shown.exitCode = shown'.exitCode ∧ shown.output ≠ shown'.output ∧
      dropRenditions shown.output.toList = dropRenditions shown'.output.toList := by
  intro image t
  have h : Request.read ["-L", "trace", "info", "i.bin"] =
      .ok (.run { command := .info ⟨.bare, ["i.bin"]⟩, level := some .trace }) := by cbv
  have h' : Request.read ["--no-color", "info", "i.bin"] =
      .ok (.run { command := .info ⟨.bare, ["i.bin"]⟩, noColour := true }) := by cbv
  have hcoloured :
      ((runProgram "7" { forceColour := some "" } ["-L", "trace", "info", "i.bin"] :
          StateM FileTree _).run t).1.output ≠
        ((runProgram "7" { log := some "off" } ["--no-color", "info", "i.bin"] :
          StateM FileTree _).run t).1.output := by
    revert t image
    decide +kernel
  obtain ⟨after, shown, shown', hrun, hrun', hexit, houtput⟩ :=
    (runProgram_agree h h' rfl).1 "7" { forceColour := some "" } { log := some "off" } t
  rw [hrun, hrun'] at hcoloured
  exact ⟨after, shown, shown', hrun, hrun', hexit, hcoloured, houtput⟩

end BootImage
