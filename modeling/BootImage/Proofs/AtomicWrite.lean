import BootImage.Proofs.Growth

/-!
# Atomic writes

* (operations on files) Creating, removing and moving a file rewrite the places of the paths and nothing else.
* (runs) A write by way of the temporary sibling makes the directories above it first.  After that it either
  moves the sibling to the path or leaves at most the sibling, which is then removed:
  `FileAccess.writeAtomically_cases`.
* (the whole write) `FileAccess.writeAtomically_atomic`: all of the contents are at the path, or nothing that
  was there before has changed.  In both cases no temporary file is left, and the directories above the path
  are all that is new.  A path that named nothing can name one of these afterwards
  (`writeAtomically_leaves_directory`).
-/

namespace BootImage

namespace FileTree

variable {t after : FileTree}

/-! ### Operations on files -/

private theorem rewrites_of_get? {location : Location} {e : Option Entry}
    (hworking : after.workingDirectory = t.workingDirectory)
    (hget : ∀ other, after.get? other = if location = other then e else t.get? other)
    (hbefore : t.get? location ≠ some .directory) (hafter : e ≠ some .directory) :
    Rewrites {location} t after where
  workingDirectory := hworking
  same other hother := by
    rw [hget, if_neg]
    exact fun h => hother h.symm
  noDirectory other hother := by
    obtain rfl : other = location := hother
    rw [hget, if_pos rfl]
    exact ⟨hbefore, hafter⟩

private theorem rewrites_put {location : Location} (hplace : location ≠ [])
    (hbefore : t.get? location ≠ some .directory) (contents : Bytes) :
    Rewrites {location} t (t.put location (.file contents)) :=
  rewrites_of_get? rfl (get?_put t hplace _) hbefore (by simp)

private theorem rewrites_erase {location : Location} (hplace : location ≠ [])
    (hbefore : t.get? location ≠ some .directory) :
    Rewrites {location} t (t.erase location) :=
  rewrites_of_get? rfl (get?_erase t hplace) hbefore (by simp)

end FileTree

namespace FileAccess

open FileTree

variable {t left after : FileTree} {p temporary : Path} {tag : String} {contents : Bytes}

/-! ### Runs -/

private theorem run_createFile (t : FileTree) (p : Path) (contents : Bytes) :
    (createFile p contents : StateM FileTree _).run t =
      match t.createFile p contents with
      | .ok next => (.ok (), next)
      | .error e => (.error e, t) := rfl

private theorem run_renameFile (t : FileTree) (source p : Path) :
    (renameFile source p : StateM FileTree _).run t =
      match t.renameFile source p with
      | .ok next => (.ok (), next)
      | .error e => (.error e, t) := rfl

private theorem run_removeFile (t : FileTree) (p : Path) :
    (removeFile p : StateM FileTree _).run t =
      match t.removeFile p with
      | .ok next => (.ok (), next)
      | .error e => (.error e, t) := rfl

private theorem run_move (t : FileTree) (source p : Path) :
    (do return (← renameFile source p).mapError .operation : StateM FileTree (Except WriteFailure Unit)).run
      t =
      match t.renameFile source p with
      | .error e => (.error (.operation e), t)
      | .ok next => (.ok (), next) := by
  rw [run_bind, run_renameFile]
  cases t.renameFile source p <;> rfl

private theorem run_writeBy (t : FileTree) (temporary p : Path) (contents : Bytes) :
    (writeBy temporary p contents : StateM FileTree _).run t =
      match (makeParents temporary : StateM FileTree _).run t with
      | (.error e, made) => (.error (.operation e), made)
      | (.ok (), made) =>
        match made.createFile temporary contents with
        | .error e => (.error (.creation temporary e), made)
        | .ok created =>
          match created.renameFile temporary p with
          | .error e => (.error (.operation e), created)
          | .ok after => (.ok (), after) := by
  rw [writeBy, run_bind, writeFile, run_bind]
  rcases (makeParents temporary : StateM FileTree _).run t with ⟨_ | _, made⟩
  · rfl
  · simp only [run_bind, run_createFile]
    cases made.createFile temporary contents with
    | error e => rfl
    | ok created => exact run_move created temporary p

private theorem run_writeAtomically (h : p.temporary? tag = some temporary) (t : FileTree)
    (contents : Bytes) :
    (writeAtomically tag p contents : StateM FileTree _).run t =
      match (writeBy temporary p contents : StateM FileTree _).run t with
      | (.ok (), after) => (.ok (), after)
      | (.error e, left) =>
        (.error (.failed p e),
          match left.removeFile temporary with
          | .ok cleaned => cleaned
          | .error _ => left) := by
  rw [writeAtomically, h]
  simp only [run_bind]
  rcases (writeBy temporary p contents : StateM FileTree _).run t with ⟨_ | _, left⟩
  · simp only [run_bind, run_removeFile]
    cases left.removeFile temporary <;> rfl
  · rfl

private theorem rewrites_move {location : Location} (hplace : t.place? temporary = some (location, false))
    (hnone : t.get? location = none)
    (hrename : (t.put location (.file contents)).renameFile temporary p = .ok after) :
    ∃ target, Rewrites {target} t after ∧ after.lookup p = .ok (target, .file contents) := by
  have hnil := place?_ne_nil hplace
  have hput := rewrites_put hnil (t := t) (by simp [hnone]) contents
  obtain ⟨old, new, moved, hold, hmoved, hnew, hdirectory, rfl⟩ := renameFile_eq_ok_iff.1 hrename
  -- what is moved is the file that was just put there
  obtain rfl : old = location := by
    rw [hput.place?_eq_some_iff, hplace] at hold
    cases hold
    rfl
  obtain rfl : moved = contents := by
    rw [get?_put t hnil, if_pos rfl] at hmoved
    cases hmoved
    rfl
  have herase := rewrites_erase hnil (t := t.put old (.file moved)) (by simp [hmoved])
  have hgone := get?_erase (t.put old (.file moved)) hnil
  have hmove := rewrites_put (place?_ne_nil hnew) (t := (t.put old (.file moved)).erase old)
    (by rw [hgone]; split_ifs <;> simp [hdirectory]) moved
  have hthere := get?_put ((t.put old (.file moved)).erase old) (place?_ne_nil hnew) (.file moved)
  refine ⟨new, ((hput.trans herase).trans hmove).shrink (by simp) ?_, ?_⟩
  · -- the place that the file was moved from is free again
    rintro location ⟨hmem, hother⟩
    have hne : location ≠ new := hother
    obtain rfl : location = old := by simpa [hne] using hmem
    rw [hthere, if_neg hne.symm, hgone, if_pos rfl, hnone]
  · rw [lookup_eq_file_iff, (herase.trans hmove).place?_eq_some_iff, hthere, if_pos rfl]
    exact ⟨hnew, rfl⟩

/-- A write by way of a path that names no file moves its file to the place of the other path, or leaves it at
most at the first one. -/
private theorem writeBy_cases (hno : (t.grown temporary).NoFile temporary) {result : Except WriteFailure Unit}
    (hrun : (writeBy temporary p contents : StateM FileTree _).run t = (result, left)) :
    (result = .ok () ∧ ∃ location, Rewrites {location} (t.grown temporary) left ∧
        left.lookup p = .ok (location, .file contents)) ∨
      (∃ e, result = .error e) ∧ (left = t.grown temporary ∨
        ∃ location, Rewrites {location} (t.grown temporary) left ∧
          (t.grown temporary).place? temporary = some (location, false) ∧
          (t.grown temporary).get? location = none ∧ left.get? location = some (.file contents)) := by
  rw [run_writeBy] at hrun
  rcases hmade : (makeParents temporary : StateM FileTree _).run t with ⟨_ | _, made⟩ <;>
    rw [hmade] at hrun <;>
    obtain hgrown : t.grown temporary = made := congrArg Prod.snd hmade <;>
    rw [hgrown] at hno ⊢
  · cases hrun
    exact .inr ⟨⟨_, rfl⟩, .inl rfl⟩
  · cases hcreate : made.createFile temporary contents with
    | error e =>
      simp only [hcreate] at hrun
      cases hrun
      exact .inr ⟨⟨_, rfl⟩, .inl rfl⟩
    | ok created =>
      obtain ⟨old, hold, hdirectory, rfl⟩ := createFile_eq_ok_iff.1 hcreate
      -- the temporary path names neither a file nor a directory, so its place is free
      have hnone : made.get? old = none := by
        rcases hget : made.get? old with _ | _ | _
        · rfl
        · exact absurd hget (hno.get?_ne hold)
        · exact absurd hget hdirectory
      simp only [hcreate] at hrun
      cases hrename : (made.put old (.file contents)).renameFile temporary p with
      | error e =>
        rw [hrename] at hrun
        cases hrun
        refine .inr ⟨⟨_, rfl⟩,
          .inr ⟨old, rewrites_put (place?_ne_nil hold) hdirectory contents, hold, hnone, ?_⟩⟩
        rw [get?_put made (place?_ne_nil hold), if_pos rfl]
      | ok after =>
        rw [hrename] at hrun
        cases hrun
        exact .inl ⟨rfl, rewrites_move hold hnone hrename⟩

/-- What a failed write leaves at a path that named no file is removed again. -/
private theorem rewrites_cleaned (hno : t.NoFile temporary)
    (hleft : left = t ∨ ∃ location, Rewrites {location} t left ∧ t.place? temporary = some (location, false) ∧
      t.get? location = none ∧ left.get? location = some (.file contents)) :
    Rewrites ∅ t (match left.removeFile temporary with | .ok cleaned => cleaned | .error _ => left) := by
  rcases hleft with rfl | ⟨location, hrewrites, hplace, hnone, hfile⟩
  · cases hremove : left.removeFile temporary with
    | error e => exact .refl left
    | ok cleaned =>
      obtain ⟨location, contents, hplace, hfile, -⟩ := removeFile_eq_ok_iff.1 hremove
      exact absurd hfile (hno.get?_ne hplace)
  · have hremove : left.removeFile temporary = .ok (left.erase location) :=
      removeFile_eq_ok_iff.2 ⟨location, contents, hrewrites.place?_eq_some_iff.2 hplace, hfile, rfl⟩
    have herase := rewrites_erase (place?_ne_nil hplace) (t := left) (by simp [hfile])
    rw [hremove]
    refine (hrewrites.trans herase).shrink (Set.empty_subset _) ?_
    rintro other ⟨hmem, -⟩
    obtain rfl : other = location := by simpa using hmem
    rw [get?_erase left (place?_ne_nil hplace), if_pos rfl, hnone]

/-- After the directories are made, an atomic write rewrites the place of its path, or nothing. -/
theorem writeAtomically_cases (hsibling : p.temporary? tag = some temporary)
    (hno : (t.grown temporary).NoFile temporary) {result : Except AtomicWriteFailure Unit}
    (hrun : (writeAtomically tag p contents : StateM FileTree _).run t = (result, after)) :
    (result = .ok () ∧ ∃ location, Rewrites {location} (t.grown temporary) after ∧
        after.lookup p = .ok (location, .file contents)) ∨
      (∃ e, result = .error e) ∧ Rewrites ∅ (t.grown temporary) after := by
  rw [run_writeAtomically hsibling] at hrun
  rcases hwrite : (writeBy temporary p contents : StateM FileTree _).run t with ⟨written, left⟩
  rcases writeBy_cases hno hwrite with ⟨rfl, hdone⟩ | ⟨⟨e, rfl⟩, hleft⟩
  · rw [hwrite] at hrun
    cases hrun
    exact .inl ⟨rfl, hdone⟩
  · rw [hwrite] at hrun
    cases hrun
    exact .inr ⟨⟨_, rfl⟩, rewrites_cleaned hno hleft⟩

/-! ### The whole write -/

section

variable (hvacant : ∀ temporary, p.temporary? tag = some temporary → t.Vacant temporary)
  {result : Except AtomicWriteFailure Unit}
  (hrun : (writeAtomically tag p contents : StateM FileTree _).run t = (result, after))

include hrun

private theorem writeAtomically_of_unnamed (hunnamed : p.temporary? tag = none) :
    result = .error (.unnamed p) ∧ after = t := by
  rw [writeAtomically, hunnamed] at hrun
  cases hrun
  exact ⟨rfl, rfl⟩

include hvacant

theorem grows_of_ok (h : result = .ok ()) :
    ∃ location, after.lookup p = .ok (location, .file contents) ∧ Grows p.directories {location} t after := by
  cases hsibling : p.temporary? tag with
  | none =>
    rw [(writeAtomically_of_unnamed hrun hsibling).1] at h
    contradiction
  | some temporary =>
    rcases writeAtomically_cases hsibling (noFile_grown hsibling (hvacant temporary hsibling)) hrun with
      ⟨-, location, hrewrites, hlookup⟩ | ⟨⟨e, he⟩, -⟩
    · exact ⟨location, hlookup, (grows_grown t hsibling).trans (hrewrites.grows _)⟩
    · rw [h] at he
      contradiction

theorem grows_of_error {failure : AtomicWriteFailure} (h : result = .error failure) :
    Grows p.directories ∅ t after := by
  cases hsibling : p.temporary? tag with
  | none =>
    rw [(writeAtomically_of_unnamed hrun hsibling).2]
    exact .refl _ _ _
  | some temporary =>
    rcases writeAtomically_cases hsibling (noFile_grown hsibling (hvacant temporary hsibling)) hrun with
      ⟨hok, -⟩ | ⟨-, hrewrites⟩
    · rw [h] at hok
      contradiction
    · exact (grows_grown t hsibling).trans (hrewrites.grows _)

theorem noFile_temporary (hsibling : p.temporary? tag = some temporary) : after.NoFile temporary := by
  have hno := noFile_grown hsibling (hvacant temporary hsibling)
  rcases writeAtomically_cases hsibling hno hrun with ⟨-, location, hrewrites, hlookup⟩ | ⟨-, hrewrites⟩
  · apply hrewrites.noFile hno
    rw [lookup_location hlookup]
    exact destination_temporary_ne hsibling
  · exact hrewrites.noFile hno (Set.notMem_empty _)

/-- What a path named before a failed write is still there, and so is everything else. -/
private theorem unchanged_of_error {failure : AtomicWriteFailure} (h : result = .error failure)
    {found : Location × Entry} (hfound : t.lookup p = .ok found) :
    after.lookup p = .ok found ∧ ∀ location, after.get? location = t.get? location := by
  cases hsibling : p.temporary? tag with
  | none =>
    rw [(writeAtomically_of_unnamed hrun hsibling).2]
    exact ⟨hfound, fun _ => rfl⟩
  | some temporary =>
    rcases writeAtomically_cases hsibling (noFile_grown hsibling (hvacant temporary hsibling)) hrun with
      ⟨hok, -⟩ | ⟨-, hrewrites⟩
    · rw [h] at hok
      contradiction
    · rw [grown_of_lookup hfound hsibling] at hrewrites
      have hsame : ∀ location, after.get? location = t.get? location :=
        fun location => hrewrites.same location (Set.notMem_empty _)
      exact ⟨by rw [lookup_congr hrewrites.workingDirectory hsame, hfound], hsame⟩

/-- Where nothing was, a failed write leaves nothing, if no directory above the path leads there; only a step
back on the path can make one do that. -/
private theorem free_of_error {failure : AtomicWriteFailure} (h : result = .error failure)
    (hnone : t.get? (t.destination p) = none)
    (hpath : ".." ∉ p.pieces ∨ ∀ q ∈ p.directories, t.destination q ≠ t.destination p) :
    after.get? (t.destination p) = none := by
  cases hsibling : p.temporary? tag with
  | none => rw [(writeAtomically_of_unnamed hrun hsibling).2, hnone]
  | some temporary =>
    apply (grows_of_error hvacant hrun h).get?_eq_none (Set.notMem_empty _) hnone
    rcases hpath with hforth | hpath
    · exact fun q => destination_directory_ne hsibling hforth
    · exact hpath

/-- A write that reports success has put all of the contents at the path; one that reports a failure has
changed nothing that the path named, and has put nothing where nothing was unless a directory above the path
leads there. -/
theorem writeAtomically_atomic :
    (result = .ok () → ∃ location, after.lookup p = .ok (location, .file contents) ∧
        Grows p.directories {location} t after) ∧
      (∀ failure, result = .error failure → Grows p.directories ∅ t after ∧
        (∀ found, t.lookup p = .ok found →
          after.lookup p = .ok found ∧ ∀ location, after.get? location = t.get? location) ∧
        (t.get? (t.destination p) = none →
          (".." ∉ p.pieces ∨ ∀ q ∈ p.directories, t.destination q ≠ t.destination p) →
          after.get? (t.destination p) = none)) ∧
      ∀ temporary, p.temporary? tag = some temporary → after.NoFile temporary := by
  refine ⟨grows_of_ok hvacant hrun, ?_, fun _ => noFile_temporary hvacant hrun⟩
  intro failure hfailure
  exact ⟨grows_of_error hvacant hrun hfailure, fun _ => unchanged_of_error hvacant hrun hfailure,
    free_of_error hvacant hrun hfailure⟩

end

/-- A file in a directory that is made for it. -/
theorem writeAtomically_atomic_nested :
    let p : Path := ⟨.bare, ["out", "flash.bin"]⟩
    let after := ((writeAtomically "7" p [1, 2] : StateM FileTree _).run {}).2
    (∀ temporary, p.temporary? "7" = some temporary → ({} : FileTree).Vacant temporary) ∧
      (writeAtomically "7" p [1, 2] : StateM FileTree _).run {} = (.ok (), after) ∧
      ∃ location, after.lookup p = .ok (location, .file [1, 2]) ∧
        Grows [⟨.bare, ["out"]⟩, ⟨.bare, []⟩] {location} {} after := by
  have hsibling : (⟨.bare, ["out", "flash.bin"]⟩ : Path).temporary? "7" =
      some ⟨.bare, ["out", "flash.bin.7.tmp"]⟩ := by decide
  have hvacant : ∀ temporary, (⟨.bare, ["out", "flash.bin"]⟩ : Path).temporary? "7" = some temporary →
      ({} : FileTree).Vacant temporary := by
    rw [hsibling]
    rintro _ ⟨⟩
    exact .of_lookup (e := .system .notFound) rfl rfl
  have hresult : ((writeAtomically "7" ⟨.bare, ["out", "flash.bin"]⟩ [1, 2] : StateM FileTree _).run {}).1 =
      .ok () := by rfl
  exact ⟨hvacant, Prod.ext hresult rfl, (writeAtomically_atomic hvacant (Prod.ext hresult rfl)).1 rfl⟩

/-- A directory above the path can be what the path names: it is made for the temporary file and stays when
that cannot be moved over it. -/
theorem writeAtomically_leaves_directory :
    let p : Path := ⟨.bare, ["x", "..", "x"]⟩
    let (result, after) := (writeAtomically "7" p [1] : StateM FileTree _).run {}
    (∀ temporary, p.temporary? "7" = some temporary → ({} : FileTree).Vacant temporary) ∧
      result = .error (.failed p (.operation (.system .isDirectory))) ∧
      ({} : FileTree).lookup p = .error (.system .notFound) ∧ ({} : FileTree).get? ["x"] = none ∧
      after.lookup p = .ok (["x"], .directory) := by
  refine ⟨?_, rfl, rfl, rfl, rfl⟩
  have hsibling : (⟨.bare, ["x", "..", "x"]⟩ : Path).temporary? "7" =
      some ⟨.bare, ["x", "..", "x.7.tmp"]⟩ := by
    decide
  rw [hsibling]
  rintro _ ⟨⟩
  exact .of_lookup (e := .system .notFound) rfl rfl

end FileAccess

end BootImage
