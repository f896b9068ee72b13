import BootImage.Proofs.Places

/-!
# Where paths lead

* (destinations) What a walk finds is at the path's destination, the location that its pieces spell out:
  `FileTree.lookup_location`.
* (other trees) A walk that succeeds in a tree takes the same way through every tree with the same
  directories, and a walk that fails at a file or at a name still fails where the files are still there:
  `FileTree.locate_eq_of_enter`.
-/

namespace BootImage

namespace FileTree

variable {t after : FileTree} {p : Path} {location : Location}

def step (directory : Location) (piece : String) : Location :=
  if Path.isVoid piece then directory else if piece = ".." then directory.tail else piece :: directory

def origin (t : FileTree) (p : Path) : Location := if p.anchor = .root then [] else t.workingDirectory

/-- The location that a path leads to once the directories on the way are there. -/
def destination (t : FileTree) (p : Path) : Location := p.pieces.foldl step (t.origin p)

@[simp] private theorem step_of_isVoid {piece : String} (h : Path.isVoid piece) (directory : Location) :
    step directory piece = directory := by
  rw [step, if_pos h]

theorem foldl_step_of_isVoid {pieces : List String} (h : ∀ piece ∈ pieces, Path.isVoid piece)
    (directory : Location) : pieces.foldl step directory = directory := by
  induction pieces with
  | nil => rfl
  | cons piece rest ih =>
    rw [List.forall_mem_cons] at h
    rw [List.foldl_cons, step_of_isVoid h.1, ih h.2]

theorem eq_append_of_dropWhile_reverse {dropped : String → Bool} {pieces before : List String} {last : String}
    (h : pieces.reverse.dropWhile dropped = last :: before) :
    dropped last = false ∧ ∃ tail, (∀ piece ∈ tail, dropped piece) ∧
      pieces = before.reverse ++ last :: tail := by
  refine ⟨?_, (pieces.reverse.takeWhile dropped).reverse, ?_, ?_⟩
  · have hhead := List.head?_dropWhile_not dropped pieces.reverse
    rwa [h] at hhead
  · intro piece hpiece
    exact List.mem_takeWhile_imp (List.mem_reverse.1 hpiece)
  · rw [← List.reverse_inj, List.reverse_append, List.reverse_cons, List.reverse_reverse,
      List.reverse_reverse, List.append_assoc, List.singleton_append, ← h, List.takeWhile_append_dropWhile]

/-- Only the kind of the entry that a piece names decides whether it can be entered. -/
theorem enter_eq (t : FileTree) (directory : Location) (piece : String) :
    t.enter directory piece =
      if Path.isVoid piece then .ok directory
      else if piece = ".." then .ok directory.tail
      else if piece.utf8ByteSize ≤ nameLimit then
        match t.get? (piece :: directory) with
        | some .directory => .ok (piece :: directory)
        | some (.file _) => .error .notDirectory
        | none => .error .notFound
      else .error .nameTooLong := by
  by_cases hname : piece.utf8ByteSize ≤ nameLimit
  · rw [enter, child?_of_le hname, if_pos hname]
    rcases t.get? (piece :: directory) with _ | _ | _ <;> rfl
  · rw [enter, child?, if_neg hname, if_neg hname]

private theorem enter_location {directory found : Location} {piece : String}
    (h : t.enter directory piece = .ok found) :
    found = step directory piece := by
  rw [enter_eq] at h
  rw [step]
  split_ifs at h ⊢
  · cases h
    rfl
  · cases h
    rfl
  · rcases hget : t.get? (piece :: directory) with _ | _ | _ <;> rw [hget] at h <;> cases h
    rfl

private theorem foldlM_enter_location {directory found : Location} {pieces : List String}
    (h : pieces.foldlM t.enter directory = .ok found) : found = pieces.foldl step directory := by
  induction pieces generalizing directory with
  | nil =>
    cases h
    rfl
  | cons piece rest ih =>
    rw [List.foldlM_cons] at h
    cases hstep : t.enter directory piece with
    | error e =>
      rw [hstep] at h
      contradiction
    | ok next =>
      rw [hstep] at h
      rw [List.foldl_cons, ← enter_location hstep]
      exact ih h

theorem walk_eq (t : FileTree) (p : Path) :
    t.walk p =
      match p.pieces.reverse.dropWhile (· = "") with
      | [] => .ok ⟨t.origin p, .self, true⟩
      | last :: before =>
        (before.reverse.foldlM t.enter (t.origin p)).map fun directory =>
          ⟨directory, lastOf last, p.pieces.getLast? = some ""⟩ := rfl

def locationOf (target : Target) : Location :=
  match target.last with
  | .self => target.directory
  | .parent => target.directory.tail
  | .named name => name :: target.directory

private theorem locationOf_lastOf {last : String} (h : last ≠ "") (directory : Location) (slashed : Bool) :
    locationOf ⟨directory, lastOf last, slashed⟩ = step directory last := by
  unfold lastOf step Path.isVoid
  by_cases hself : last = "."
  · simp [hself, locationOf]
  · by_cases hparent : last = ".."
    · simp [hparent, locationOf]
    · simp [h, hself, hparent, locationOf]

private theorem locationOf_walk {target : Target} (h : t.walk p = .ok target) :
    locationOf target = t.destination p := by
  rw [walk_eq] at h
  rw [destination]
  split at h
  · rename_i hempty
    cases h
    -- no piece names anything: the walk ends where it starts
    rw [foldl_step_of_isVoid]
    · rfl
    · intro piece hpiece
      rw [List.dropWhile_eq_nil_iff] at hempty
      simpa [Path.isVoid] using Or.inl (hempty piece (List.mem_reverse.2 hpiece))
  · rename_i last before hsplit
    obtain ⟨hlast, tail, htail, hpieces⟩ := eq_append_of_dropWhile_reverse hsplit
    have hvoid : ∀ piece ∈ tail, Path.isVoid piece := by
      intro piece hpiece
      simpa [Path.isVoid] using Or.inl (htail piece hpiece)
    cases hwalk : before.reverse.foldlM t.enter (t.origin p) with
    | error e =>
      rw [hwalk] at h
      contradiction
    | ok directory =>
      rw [hwalk] at h
      cases h
      rw [locationOf_lastOf (by simpa using hlast), foldlM_enter_location hwalk, hpieces, List.foldl_append,
        List.foldl_cons, foldl_step_of_isVoid hvoid]

theorem walk_of_locate {target : Target} (h : t.locate p = .ok target) : t.walk p = .ok target := by
  unfold locate at h
  split_ifs at h
  cases hwalk : t.walk p with
  | error e =>
    rw [hwalk] at h
    contradiction
  | ok found =>
    rw [hwalk] at h
    cases h
    rfl

theorem locate_of_lookup {found : Location × Entry} (h : t.lookup p = .ok found) :
    ∃ target, t.locate p = .ok target := by
  cases hlocate : t.locate p with
  | error e => simp [lookup, hlocate] at h
  | ok target => exact ⟨target, rfl⟩

theorem place?_location {slashed : Bool} (h : t.place? p = some (location, slashed)) :
    location = t.destination p := by
  obtain ⟨directory, name, hlocate, -, rfl⟩ := place?_eq_some_iff.1 h
  exact locationOf_walk (walk_of_locate hlocate)

theorem lookup_location {e : Entry} (h : t.lookup p = .ok (location, e)) : location = t.destination p := by
  obtain ⟨⟨directory, last, slashed⟩, hlocate⟩ := locate_of_lookup h
  rw [← locationOf_walk (walk_of_locate hlocate)]
  rw [lookup, hlocate, ok_bind] at h
  cases last with
  | self =>
    cases h
    rfl
  | parent =>
    cases h
    rfl
  | named name =>
    by_cases hname : name.utf8ByteSize ≤ nameLimit
    · rcases hget : t.get? (name :: directory) with _ | _ | _ <;> cases slashed <;>
        simp [entryAt, child?_of_le hname, hget] at h <;> rw [← h.1] <;> rfl
    · simp [entryAt, child?, hname] at h

/-! ### Other trees -/

section

variable (fickle : SystemFault → Prop)
  (henter : ∀ directory piece, (∀ e, fickle e → t.enter directory piece ≠ .error e) →
    after.enter directory piece = t.enter directory piece)

include henter

private theorem foldlM_enter_eq {pieces : List String} {directory : Location}
    (h : ∀ e, fickle e → pieces.foldlM t.enter directory ≠ .error e) :
    pieces.foldlM after.enter directory = pieces.foldlM t.enter directory := by
  induction pieces generalizing directory with
  | nil => rfl
  | cons piece rest ih =>
    rw [List.foldlM_cons] at h
    rw [List.foldlM_cons, List.foldlM_cons]
    cases hstep : t.enter directory piece with
    | error e =>
      rw [hstep] at h
      rw [henter directory piece (by rw [hstep]; exact h), hstep]
      rfl
    | ok next =>
      rw [hstep] at h
      rw [henter directory piece (by rw [hstep]; simp), hstep]
      exact ih h

/-- A walk takes the same way through another tree if each of its steps does, unless the walk ends in a fault
that may be gone there. -/
theorem locate_eq_of_enter (hworking : after.workingDirectory = t.workingDirectory)
    (h : ∀ e, fickle e → t.locate p ≠ .error (.system e)) : after.locate p = t.locate p := by
  have horigin : after.origin p = t.origin p := by rw [origin, origin, hworking]
  unfold locate at h ⊢
  split_ifs at h ⊢ with hnul hempty hlong
  · rfl
  · rfl
  · rfl
  · congr 1
    rw [walk_eq] at h ⊢
    rw [walk_eq, horigin]
    cases hsplit : p.pieces.reverse.dropWhile (· = "") with
    | nil => rfl
    | cons last before =>
      rw [hsplit] at h
      simp only
      rw [foldlM_enter_eq fickle henter]
      intro e he hfault
      apply h e he
      simp only [hfault]
      rfl

end

/-- Trees with the same entries cannot be told apart by looking. -/
theorem lookup_congr (hworking : after.workingDirectory = t.workingDirectory)
    (hsame : ∀ location, after.get? location = t.get? location) : after.lookup p = t.lookup p := by
  have hlocate : after.locate p = t.locate p := by
    apply locate_eq_of_enter (fun _ => False) _ hworking
    · simp
    · intro directory piece _
      rw [enter_eq, enter_eq, hsame]
  have hentry : after.entryAt = t.entryAt := by
    funext target
    simp only [entryAt, child?, hsame]
  rw [lookup, lookup, hlocate, hentry]

/-- A walk that succeeds takes the same way through every tree with the same directories. -/
private theorem locate_of_directories (hworking : after.workingDirectory = t.workingDirectory)
    (hdirectories : ∀ location, t.get? location = some .directory → after.get? location = some .directory)
    {target : Target} (h : t.locate p = .ok target) : after.locate p = .ok target := by
  rw [← h]
  apply locate_eq_of_enter (fun _ => True) _ hworking
  · simp [h]
  · -- a piece that cannot be entered is excluded, so all that counts is that directories stay
    intro directory piece hsuccess
    rw [enter_eq] at hsuccess ⊢
    rw [enter_eq]
    split_ifs at hsuccess ⊢
    · rfl
    · rfl
    · rcases hget : t.get? (piece :: directory) with _ | _ | _
      · simp [hget] at hsuccess
      · simp [hget] at hsuccess
      · rw [hdirectories _ hget]
    · rfl

/-- A walk that fails takes the same way where nothing is lost, unless it fails for a directory that is
missing. -/
theorem locate_of_kept (hworking : after.workingDirectory = t.workingDirectory)
    (hkept : ∀ location e, t.get? location = some e → after.get? location = some e)
    (h : t.locate p ≠ .error (.system .notFound)) : after.locate p = t.locate p := by
  apply locate_eq_of_enter (· = .notFound) _ hworking
  · rintro e rfl
    exact h
  · -- what a walk stumbles over is still there, unless nothing was there
    intro directory piece hfound
    rw [enter_eq] at hfound ⊢
    rw [enter_eq]
    split_ifs at hfound ⊢
    · rfl
    · rfl
    · cases hget : t.get? (piece :: directory) with
      | none => simp [hget] at hfound
      | some e => rw [hkept _ e hget]
    · rfl

theorem place?_of_directories (hworking : after.workingDirectory = t.workingDirectory)
    (hdirectories : ∀ location, t.get? location = some .directory → after.get? location = some .directory)
    {slashed : Bool} (h : t.place? p = some (location, slashed)) :
    after.place? p = some (location, slashed) := by
  obtain ⟨directory, name, hlocate, hname, rfl⟩ := place?_eq_some_iff.1 h
  exact place?_eq_some_iff.2
    ⟨directory, name, locate_of_directories hworking hdirectories hlocate, hname, rfl⟩

theorem lookup_of_directories (hworking : after.workingDirectory = t.workingDirectory)
    (hdirectories : ∀ location, t.get? location = some .directory → after.get? location = some .directory)
    (h : t.lookup p = .ok (location, .directory)) : after.lookup p = .ok (location, .directory) := by
  obtain ⟨⟨directory, last, slashed⟩, hlocate⟩ := locate_of_lookup h
  rw [lookup, hlocate, ok_bind] at h
  rw [lookup, locate_of_directories hworking hdirectories hlocate, ok_bind]
  cases last with
  | self => exact h
  | parent => exact h
  | named name =>
    by_cases hname : name.utf8ByteSize ≤ nameLimit
    · rcases hget : t.get? (name :: directory) with _ | _ | _
      · simp [entryAt, child?_of_le hname, hget] at h
      · cases slashed <;> simp [entryAt, child?_of_le hname, hget] at h
      · obtain rfl : name :: directory = location := by
          simpa [entryAt, child?_of_le hname, hget] using h
        simp [entryAt, child?_of_le hname, hdirectories _ hget]
    · simp [entryAt, child?, hname] at h

end FileTree

end BootImage
