import BootImage.Proofs.Sibling

/-!
# What making directories changes

* (growing) A tree grows by directories at given paths when nothing in it changes and every new entry is a
  directory that one of the paths finds; a set of locations can be left out of this: `FileTree.Grows`.
* (rewriting) Files are written and removed at the places that paths lead to, which stay where they are:
  `FileTree.Rewrites`.
* (runs) Making a path a directory, and the directories above it first, lets the tree grow by directories at
  these paths and does nothing else, whether it succeeds or not: `FileAccess.grows_makeDirectories`.
* (vacant paths) Where a path is vacant there is no file after the tree has grown: `FileTree.Vacant.noFile`.
-/

namespace BootImage

namespace FileTree

variable {t next after : FileTree} {p : Path} {paths more : List Path} {apart : Set Location}
  {location : Location}

/-- The second tree has what the first one has, and only directories found by the paths besides; at the
locations set apart, only that a directory stays is known. -/
structure Grows (paths : List Path) (apart : Set Location) (before after : FileTree) : Prop where
  workingDirectory : after.workingDirectory = before.workingDirectory
  directories : ∀ location, before.get? location = some .directory → after.get? location = some .directory
  kept : ∀ location ∉ apart, ∀ e, before.get? location = some e → after.get? location = some e
  made : ∀ location ∉ apart, ∀ e, after.get? location = some e →
    before.get? location = some e ∨ e = .directory ∧ ∃ q ∈ paths, after.lookup q = .ok (location, .directory)

/-- The trees differ at most in the files at the given locations, and no directory is or was at one of
these. -/
structure Rewrites (files : Set Location) (before after : FileTree) : Prop where
  workingDirectory : after.workingDirectory = before.workingDirectory
  same : ∀ location ∉ files, after.get? location = before.get? location
  noDirectory : ∀ location ∈ files, before.get? location ≠ some .directory ∧
    after.get? location ≠ some .directory

def NoFile (t : FileTree) (p : Path) : Prop :=
  ∀ location contents, t.lookup p ≠ .ok (location, .file contents)

/-- No entry is at the path, nor where the path leads once directories that are missing on its way are
made. -/
structure Vacant (t : FileTree) (p : Path) : Prop where
  nothing : ∀ found, t.lookup p ≠ .ok found
  behind : t.locate p = .error (.system .notFound) → t.get? (t.destination p) = none

theorem Vacant.of_lookup {e : FileError} (h : t.lookup p = .error e)
    (hnone : t.get? (t.destination p) = none) :
    t.Vacant p where
  nothing found := by simp [h]
  behind _ := hnone

namespace Grows

theorem refl (paths : List Path) (apart : Set Location) (t : FileTree) : Grows paths apart t t where
  workingDirectory := rfl
  directories _ h := h
  kept _ _ _ h := h
  made _ _ _ h := .inl h

theorem trans (h : Grows paths ∅ t next) (h' : Grows paths apart next after) : Grows paths apart t after where
  workingDirectory := h'.workingDirectory.trans h.workingDirectory
  directories location hget := h'.directories location (h.directories location hget)
  kept location hapart e hget := h'.kept location hapart e (h.kept location (Set.notMem_empty _) e hget)
  made location hapart e hget := by
    rcases h'.made location hapart e hget with hnext | hmade
    · rcases h.made location (Set.notMem_empty _) e hnext with hbefore | ⟨rfl, q, hq, hlookup⟩
      · exact .inl hbefore
      · exact .inr ⟨rfl, q, hq, lookup_of_directories h'.workingDirectory h'.directories hlookup⟩
    · exact .inr hmade

private theorem mono (h : Grows paths apart t after) (hpaths : paths ⊆ more) : Grows more apart t after where
  workingDirectory := h.workingDirectory
  directories := h.directories
  kept := h.kept
  made location hapart e hget := by
    rcases h.made location hapart e hget with hbefore | ⟨rfl, q, hq, hlookup⟩
    · exact .inl hbefore
    · exact .inr ⟨rfl, q, hpaths hq, hlookup⟩

theorem destination (h : Grows paths apart t after) (p : Path) : after.destination p = t.destination p := by
  rw [FileTree.destination, FileTree.destination, origin, origin, h.workingDirectory]

private theorem get?_of_file {contents : Bytes} (h : Grows paths apart t after) (hapart : location ∉ apart)
    (hget : after.get? location = some (.file contents)) : t.get? location = some (.file contents) := by
  rcases h.made location hapart _ hget with hbefore | ⟨hfile, -⟩
  · exact hbefore
  · contradiction

/-- Where nothing was and none of the paths leads, nothing is. -/
theorem get?_eq_none (h : Grows paths apart t after) (hapart : location ∉ apart)
    (hnone : t.get? location = none) (hpaths : ∀ q ∈ paths, t.destination q ≠ location) :
    after.get? location = none := by
  cases hget : after.get? location with
  | none => rfl
  | some e =>
    rcases h.made location hapart e hget with hbefore | ⟨-, q, hq, hlookup⟩
    · rw [hnone] at hbefore
      contradiction
    · rw [lookup_location hlookup, h.destination] at hpaths
      exact absurd rfl (hpaths q hq)

end Grows

namespace Rewrites

variable {files : Set Location}

theorem refl (t : FileTree) : Rewrites ∅ t t where
  workingDirectory := rfl
  same _ _ := rfl
  noDirectory _ h := absurd h (Set.notMem_empty _)

theorem symm (h : Rewrites files t after) : Rewrites files after t where
  workingDirectory := h.workingDirectory.symm
  same location hfile := (h.same location hfile).symm
  noDirectory location hfile := (h.noDirectory location hfile).symm

theorem directories (h : Rewrites files t after) (location : Location)
    (hget : t.get? location = some .directory) :
    after.get? location = some .directory := by
  by_cases hfile : location ∈ files
  · exact absurd hget (h.noDirectory location hfile).1
  · rw [h.same location hfile, hget]

theorem trans {more : Set Location} (h : Rewrites files t next) (h' : Rewrites more next after) :
    Rewrites (files ∪ more) t after where
  workingDirectory := h'.workingDirectory.trans h.workingDirectory
  same location hfile := by
    rw [Set.mem_union, not_or] at hfile
    rw [h'.same location hfile.2, h.same location hfile.1]
  noDirectory location hfile := by
    constructor
    · by_cases hfirst : location ∈ files
      · exact (h.noDirectory location hfirst).1
      · rw [← h.same location hfirst]
        exact (h'.noDirectory location (hfile.resolve_left hfirst)).1
    · by_cases hsecond : location ∈ more
      · exact (h'.noDirectory location hsecond).2
      · rw [h'.same location hsecond]
        exact (h.noDirectory location (hfile.resolve_right hsecond)).2

/-- A file that is as it was does not count. -/
theorem shrink {fewer : Set Location} (h : Rewrites files t after) (hfewer : fewer ⊆ files)
    (hsame : ∀ location ∈ files \ fewer, after.get? location = t.get? location) : Rewrites fewer t after where
  workingDirectory := h.workingDirectory
  same location hfile := by
    by_cases hbefore : location ∈ files
    · exact hsame location ⟨hbefore, hfile⟩
    · exact h.same location hbefore
  noDirectory location hfile := h.noDirectory location (hfewer hfile)

theorem grows (h : Rewrites files t after) (paths : List Path) : Grows paths files t after where
  workingDirectory := h.workingDirectory
  directories := h.directories
  kept location hfile e hget := by rw [h.same location hfile, hget]
  made location hfile e hget := .inl (by rw [← h.same location hfile, hget])

theorem place?_eq_some_iff {slashed : Bool} (h : Rewrites files t after) :
    after.place? p = some (location, slashed) ↔ t.place? p = some (location, slashed) := by
  constructor
  · exact place?_of_directories h.symm.workingDirectory h.symm.directories
  · exact place?_of_directories h.workingDirectory h.directories

end Rewrites

theorem place?_ne_nil {slashed : Bool} (h : t.place? p = some (location, slashed)) : location ≠ [] := by
  obtain ⟨directory, name, -, -, rfl⟩ := place?_eq_some_iff.1 h
  exact List.cons_ne_nil name directory

private theorem grows_of_makeDirectory (h : t.makeDirectory p = .ok after) : Grows [p] ∅ t after := by
  obtain ⟨location, slashed, hplace, hfree, rfl⟩ := makeDirectory_eq_ok_iff.1 h
  have hput := get?_put t (place?_ne_nil hplace) .directory
  have hkept : ∀ other e, t.get? other = some e → (t.put location .directory).get? other = some e := by
    intro other e hget
    rw [hput, if_neg, hget]
    rintro rfl
    rw [hfree] at hget
    contradiction
  refine ⟨rfl, fun other => hkept other .directory, fun other _ => hkept other, ?_⟩
  -- the only new entry is at the path itself, which now finds it
  intro other _ e hget
  rw [hput] at hget
  split_ifs at hget with hsame
  · cases hget
    have hworking : (t.put location .directory).workingDirectory = t.workingDirectory := rfl
    have hthere := place?_of_directories hworking (fun other => hkept other .directory) hplace
    refine .inr ⟨rfl, p, List.mem_singleton_self p, ?_⟩
    rw [← hsame]
    exact lookup_of_directory hthere (by rw [hput, if_pos rfl])
  · exact .inl hget

theorem NoFile.get?_ne {contents : Bytes} (h : t.NoFile p) (hplace : t.place? p = some (location, false)) :
    t.get? location ≠ some (.file contents) := by
  intro hget
  exact h location contents (lookup_eq_file_iff.2 ⟨hplace, hget⟩)

theorem Rewrites.noFile {files : Set Location} (h : Rewrites files t after) (hno : t.NoFile p)
    (hother : after.destination p ∉ files) : after.NoFile p := by
  intro location contents hlookup
  obtain ⟨hplace, hget⟩ := lookup_eq_file_iff.1 hlookup
  rw [← place?_location hplace] at hother
  rw [h.same location hother] at hget
  exact hno.get?_ne (h.place?_eq_some_iff.1 hplace) hget

/-- Where nothing was at a vacant path, no file is once the tree has grown. -/
theorem Vacant.noFile (hvacant : t.Vacant p) (h : Grows paths ∅ t after) : after.NoFile p := by
  intro location contents hlookup
  obtain ⟨hplace, hafter⟩ := lookup_eq_file_iff.1 hlookup
  have hget : t.get? location = some (.file contents) := h.get?_of_file (Set.notMem_empty _) hafter
  -- the path leads elsewhere than before only if a directory on its way was missing
  by_cases hlocate : t.locate p = .error (.system .notFound)
  · rw [place?_location hplace, h.destination, hvacant.behind hlocate] at hget
    contradiction
  · have hkept : ∀ other e, t.get? other = some e → after.get? other = some e :=
      fun other => h.kept other (Set.notMem_empty _)
    have hsame := locate_of_kept h.workingDirectory hkept hlocate
    refine hvacant.nothing (location, .file contents) (lookup_eq_file_iff.2 ⟨?_, hget⟩)
    rw [place?_eq_some_iff] at hplace ⊢
    rwa [← hsame]

end FileTree

namespace FileAccess

open FileTree

variable {t : FileTree} {p : Path}

/-! ### Runs -/

theorem run_bind {α β : Type} (x : StateM FileTree α) (f : α → StateM FileTree β) (t : FileTree) :
    (x >>= f).run t = (f (x.run t).1).run (x.run t).2 := rfl

private theorem run_makeDirectory (t : FileTree) (p : Path) :
    (makeDirectory p : StateM FileTree _).run t =
      match t.makeDirectory p with
      | .ok next => (.ok (), next)
      | .error e => (.error e, t) := rfl

private theorem run_isDirectory (t : FileTree) (p : Path) (e : FileError) :
    (do if ← isDirectory p then return .ok () else return .error e :
      StateM FileTree (Except FileError Unit)).run t =
      (if t.isDirectory p then .ok () else .error e, t) := by
  rw [run_bind]
  show (if t.isDirectory p = true then _ else _ : StateM FileTree _).run t = _
  split_ifs <;> rfl

private theorem run_ensureDirectory (t : FileTree) (p : Path) :
    (ensureDirectory p : StateM FileTree _).run t =
      match t.makeDirectory p with
      | .ok next => (.ok (), next)
      | .error e => (if t.isDirectory p then .ok () else .error e, t) := by
  rw [ensureDirectory, run_bind, run_makeDirectory]
  cases t.makeDirectory p with
  | ok next => rfl
  | error e => exact run_isDirectory t p e

private theorem run_makeDirectories_cons (t : FileTree) (p : Path) (above : List Path) :
    (makeDirectories (p :: above) : StateM FileTree _).run t =
      if p.text = "" then (.ok (), t)
      else
        match t.makeDirectory p with
        | .error (.system .notFound) =>
          match (makeDirectories above : StateM FileTree _).run t with
          | (.ok (), next) => (ensureDirectory p : StateM FileTree _).run next
          | (.error e, next) => (.error e, next)
        | _ => (ensureDirectory p : StateM FileTree _).run t := by
  rw [makeDirectories, run_ensureDirectory]
  by_cases hempty : p.text = ""
  · rw [if_pos hempty, if_pos hempty]
    rfl
  · rw [if_neg hempty, if_neg hempty, run_bind, run_makeDirectory]
    cases hmake : t.makeDirectory p with
    | ok next => rfl
    | error e =>
      by_cases hmissing : e = .system .notFound
      · subst hmissing
        simp only [run_bind]
        rcases (makeDirectories above : StateM FileTree _).run t with ⟨_ | _, next⟩ <;> rfl
      · simpa [hmissing, -StateT.run_bind] using run_isDirectory t p e

private theorem grows_ensureDirectory (t : FileTree) (p : Path) :
    Grows [p] ∅ t ((ensureDirectory p : StateM FileTree _).run t).2 := by
  rw [run_ensureDirectory]
  cases hmake : t.makeDirectory p with
  | ok next => exact grows_of_makeDirectory hmake
  | error e => exact .refl _ _ _

theorem grows_makeDirectories (t : FileTree) (paths : List Path) :
    Grows paths ∅ t ((makeDirectories paths : StateM FileTree _).run t).2 := by
  -- each path is tried before the ones behind it, and once more after them
  induction paths with
  | nil => exact .refl _ _ _
  | cons p above ih =>
    have hp : [p] ⊆ p :: above := List.cons_subset_cons p (List.nil_subset above)
    rw [run_makeDirectories_cons]
    split_ifs
    · exact .refl _ _ _
    · split
      · rcases hrun : (makeDirectories above : StateM FileTree _).run t with ⟨_ | _, next⟩ <;> rw [hrun] at ih
        · exact ih.mono (List.subset_cons_self p above)
        · exact (ih.mono (List.subset_cons_self p above)).trans ((grows_ensureDirectory next p).mono hp)
      · exact (grows_ensureDirectory t p).mono hp

private theorem grows_makeParents (t : FileTree) (p : Path) :
    Grows p.directories ∅ t ((makeParents p : StateM FileTree _).run t).2 := by
  rw [makeParents, Path.directories]
  cases p.parent? with
  | none => exact .refl _ _ _
  | some parent => exact grows_makeDirectories t parent.ancestors

end FileAccess

namespace FileTree

variable {t : FileTree} {p temporary : Path} {tag : String}

/-- The tree once the directories above a path are made, as far as they can be. -/
def grown (t : FileTree) (p : Path) : FileTree := ((FileAccess.makeParents p : StateM FileTree _).run t).2

theorem grows_grown (t : FileTree) (hsibling : p.temporary? tag = some temporary) :
    Grows p.directories ∅ t (t.grown temporary) := by
  rw [← Path.directories_temporary hsibling]
  exact FileAccess.grows_makeParents t temporary

theorem noFile_grown (hsibling : p.temporary? tag = some temporary) (hvacant : t.Vacant temporary) :
    (t.grown temporary).NoFile temporary := hvacant.noFile (grows_grown t hsibling)

/-- Where a path finds an entry, nothing has to be made for its sibling. -/
theorem grown_of_lookup {found : Location × Entry} (h : t.lookup p = .ok found)
    (hsibling : p.temporary? tag = some temporary) : t.grown temporary = t := by
  rw [grown, FileAccess.makeParents]
  cases hparent : temporary.parent? with
  | none => rfl
  | some parent =>
    obtain ⟨rest, hancestors⟩ := Path.ancestors_of_parent? hparent
    simp only [hancestors, FileAccess.run_makeDirectories_cons]
    split_ifs with hempty
    · rfl
    · obtain ⟨target, hlocate⟩ := locate_of_lookup h
      obtain ⟨location, hlookup⟩ := lookup_parent hlocate hsibling hparent hempty
      have hmake := makeDirectory_of_lookup hlookup
      simp [hmake, FileAccess.run_ensureDirectory]

end FileTree

end BootImage
