import Mathlib
import BootImage.File.Access

/-!
# Places in a file tree

A path leads to a place, a name in a directory, or to none.  Each operation on a tree succeeds under one
condition on the place that its path leads to, and then changes the entries at that place:
`FileTree.createFile_eq_ok_iff` and its like.
-/

namespace BootImage

namespace FileTree

variable {t after : FileTree} {p : Path} {location : Location}

/-- The place that a path's last piece names in a directory, and whether slashes stand behind the piece. -/
def place? (t : FileTree) (p : Path) : Option (Location × Bool) :=
  match t.locate p with
  | .ok ⟨directory, .named name, slashed⟩ =>
    if name.utf8ByteSize ≤ nameLimit then some (name :: directory, slashed) else none
  | _ => none

theorem place?_eq_some_iff {slashed : Bool} :
    t.place? p = some (location, slashed) ↔
      ∃ directory name, t.locate p = .ok ⟨directory, .named name, slashed⟩ ∧ name.utf8ByteSize ≤ nameLimit ∧
        location = name :: directory := by
  unfold place?
  split
  · rename_i directory name behind hlocate
    rw [hlocate]
    by_cases hname : name.utf8ByteSize ≤ nameLimit
    · rw [if_pos hname, Option.some.injEq, Prod.mk.injEq]
      constructor
      · rintro ⟨rfl, rfl⟩
        exact ⟨directory, name, rfl, hname, rfl⟩
      · rintro ⟨_, _, h, -, rfl⟩
        cases h
        exact ⟨rfl, rfl⟩
    · rw [if_neg hname]
      constructor
      · intro h
        contradiction
      · rintro ⟨_, _, h, hsize, -⟩
        cases h
        exact absurd hsize hname
  · rename_i hnone
    constructor
    · intro h
      contradiction
    · rintro ⟨directory, name, h, -⟩
      exact absurd h (hnone directory name slashed)

theorem child?_of_le {name : String} (h : name.utf8ByteSize ≤ nameLimit) (directory : Location) :
    t.child? directory name = .ok (name :: directory, t.get? (name :: directory)) := by
  rw [child?, if_pos h]

@[simp] private theorem nameAt_named (directory : Location) (name : String) (slashed : Bool)
    (unnamed : SystemFault) :
    nameAt ⟨directory, .named name, slashed⟩ unnamed = .ok name := by
  rw [nameAt]

/-- A path leads nowhere, to something without a name, to a name that is too long, or to a place. -/
private theorem place_cases (t : FileTree) (p : Path) :
    (∃ e, t.locate p = .error e ∧ t.place? p = none) ∨
      (∃ target, t.locate p = .ok target ∧ (∀ fault, nameAt target fault = .error fault) ∧
        t.place? p = none) ∨
      (∃ directory name slashed, t.locate p = .ok ⟨directory, .named name, slashed⟩ ∧
        t.child? directory name = .error .nameTooLong ∧ t.place? p = none) ∨
      ∃ directory name slashed, t.locate p = .ok ⟨directory, .named name, slashed⟩ ∧
        t.child? directory name = .ok (name :: directory, t.get? (name :: directory)) ∧
        t.place? p = some (name :: directory, slashed) := by
  unfold place?
  cases hlocate : t.locate p with
  | error e => exact .inl ⟨e, rfl, rfl⟩
  | ok target =>
    right
    obtain ⟨directory, last, slashed⟩ := target
    cases last with
    | self => exact .inl ⟨_, rfl, fun _ => rfl, rfl⟩
    | parent => exact .inl ⟨_, rfl, fun _ => rfl, rfl⟩
    | named name =>
      right
      by_cases hname : name.utf8ByteSize ≤ nameLimit
      · right
        exact ⟨directory, name, slashed, rfl, if_pos hname, if_pos hname⟩
      · left
        exact ⟨directory, name, slashed, rfl, if_neg hname, if_neg hname⟩

/-! ### What operations do -/

@[simp] theorem ok_bind {ε α β : Type} (a : α) (f : α → Except ε β) : (Except.ok a >>= f) = f a := rfl

@[simp] private theorem error_bind {ε α β : Type} (e : ε) (f : α → Except ε β) :
    (Except.error e >>= f) = .error e := rfl

@[simp] private theorem mapError_ok {ε ε' α : Type} (a : α) (f : ε → ε') :
    (Except.ok a : Except ε α).mapError f = .ok a := rfl

@[simp] private theorem mapError_error {ε ε' α : Type} (e : ε) (f : ε → ε') :
    (Except.error e : Except ε α).mapError f = .error (f e) := rfl

@[simp] private theorem throw_eq {ε α : Type} (e : ε) : (throw e : Except ε α) = .error e := rfl

private theorem pure_eq {ε α : Type} (a : α) : (pure a : Except ε α) = .ok a := rfl

theorem makeDirectory_eq_ok_iff :
    t.makeDirectory p = .ok after ↔ ∃ location slashed, t.place? p = some (location, slashed) ∧
      t.get? location = none ∧ t.put location .directory = after := by
  rcases place_cases t p with ⟨e, hlocate, hplace⟩ | ⟨target, hlocate, hname, hplace⟩ |
    ⟨directory, name, slashed, hlocate, hchild, hplace⟩ | ⟨directory, name, slashed, hlocate, hchild, hplace⟩
  · simp [makeDirectory, hlocate, hplace]
  · simp [makeDirectory, hlocate, hname, hplace]
  · simp [makeDirectory, hlocate, hchild, hplace]
  · cases hget : t.get? (name :: directory) <;> simp [makeDirectory, hlocate, hchild, hplace, hget, pure_eq]

theorem createFile_eq_ok_iff {contents : Bytes} :
    t.createFile p contents = .ok after ↔ ∃ location, t.place? p = some (location, false) ∧
      t.get? location ≠ some .directory ∧ t.put location (.file contents) = after := by
  rcases place_cases t p with ⟨e, hlocate, hplace⟩ | ⟨target, hlocate, hname, hplace⟩ |
    ⟨directory, name, slashed, hlocate, hchild, hplace⟩ | ⟨directory, name, slashed, hlocate, hchild, hplace⟩
  · simp [createFile, hlocate, hplace]
  · simp [createFile, hlocate, hname, hplace]
  · cases slashed <;> simp [createFile, hlocate, hchild, hplace]
  · rcases hget : t.get? (name :: directory) with _ | _ | _ <;> cases slashed <;>
      simp [createFile, hlocate, hchild, hplace, hget, pure_eq]

theorem removeFile_eq_ok_iff :
    t.removeFile p = .ok after ↔ ∃ location contents, t.place? p = some (location, false) ∧
      t.get? location = some (.file contents) ∧ t.erase location = after := by
  rcases place_cases t p with ⟨e, hlocate, hplace⟩ | ⟨target, hlocate, hname, hplace⟩ |
    ⟨directory, name, slashed, hlocate, hchild, hplace⟩ | ⟨directory, name, slashed, hlocate, hchild, hplace⟩
  · simp [removeFile, hlocate, hplace]
  · simp [removeFile, hlocate, hname, hplace]
  · simp [removeFile, hlocate, hchild, hplace]
  · rcases hget : t.get? (name :: directory) with _ | _ | _ <;> cases slashed <;>
      simp [removeFile, hlocate, hchild, hplace, hget, pure_eq]

theorem renameFile_eq_ok_iff {source : Path} :
    t.renameFile source p = .ok after ↔ ∃ old new contents, t.place? source = some (old, false) ∧
      t.get? old = some (.file contents) ∧ t.place? p = some (new, false) ∧ t.get? new ≠ some .directory ∧
      (t.erase old).put new (.file contents) = after := by
  rcases place_cases t source with ⟨e, hlocate, hplace⟩ | ⟨target, hlocate, hname, hplace⟩ |
    ⟨directory, name, slashed, hlocate, hchild, hplace⟩ | ⟨directory, name, slashed, hlocate, hchild, hplace⟩
  · simp [renameFile, hlocate, hplace]
  · cases hnew : t.locate p <;> simp [renameFile, hlocate, hname, hplace, hnew]
  · rcases place_cases t p with ⟨e, hnew, -⟩ | ⟨target, hnew, hname, -⟩ | ⟨d, n, s, hnew, -⟩ | ⟨d, n,
      s, hnew, -⟩
    · simp [renameFile, hlocate, hplace, hnew]
    · simp [renameFile, hlocate, hplace, hnew, hname]
    · simp [renameFile, hlocate, hchild, hplace, hnew]
    · simp [renameFile, hlocate, hchild, hplace, hnew]
  · rcases place_cases t p with ⟨e, hnew, hthere⟩ | ⟨target, hnew, hname, hthere⟩ | ⟨d, n, s, hnew, hnewChild,
      hthere⟩ |
      ⟨d, n, s, hnew, hnewChild, hthere⟩
    · simp [renameFile, hlocate, hnew, hthere]
    · simp [renameFile, hlocate, hnew, hname, hthere]
    · rcases hget : t.get? (name :: directory) with _ | _ | _ <;>
        simp [renameFile, hlocate, hchild, hget, hnew, hnewChild, hthere]
    · rcases hget : t.get? (name :: directory) with _ | _ | _
      · simp [renameFile, hlocate, hchild, hplace, hget, hnew, hnewChild, hthere]
      · by_cases hdirectory : t.get? (n :: d) = some .directory <;> cases slashed <;> cases s <;>
          simp [renameFile, hlocate, hchild, hplace, hget, hnew, hnewChild, hthere, hdirectory, pure_eq]
      · simp [renameFile, hlocate, hchild, hplace, hget, hnew, hnewChild, hthere]

theorem lookup_eq_file_iff {contents : Bytes} :
    t.lookup p = .ok (location, .file contents) ↔
      t.place? p = some (location, false) ∧ t.get? location = some (.file contents) := by
  rcases place_cases t p with ⟨e, hlocate, hplace⟩ | ⟨target, hlocate, hname, hplace⟩ |
    ⟨directory, name, slashed, hlocate, hchild, hplace⟩ | ⟨directory, name, slashed, hlocate, hchild, hplace⟩
  · simp [lookup, hlocate, hplace]
  · obtain ⟨directory, last, slashed⟩ := target
    cases last with
    | self => simp [lookup, hlocate, hplace, entryAt]
    | parent => simp [lookup, hlocate, hplace, entryAt]
    | named name => simpa using hname .notFound
  · simp [lookup, hlocate, hchild, hplace, entryAt]
  · rw [hplace, Option.some.injEq, Prod.mk.injEq]
    constructor
    · intro h
      rcases hget : t.get? (name :: directory) with _ | _ | _ <;> cases slashed <;>
        simp [lookup, hlocate, hchild, hget, entryAt] at h
      obtain ⟨rfl, rfl⟩ := h
      exact ⟨⟨rfl, rfl⟩, hget⟩
    · rintro ⟨⟨rfl, rfl⟩, hget⟩
      simp [lookup, hlocate, hchild, hget, entryAt]

theorem lookup_of_directory {slashed : Bool} (hplace : t.place? p = some (location, slashed))
    (hget : t.get? location = some .directory) : t.lookup p = .ok (location, .directory) := by
  obtain ⟨directory, name, hlocate, hname, rfl⟩ := place?_eq_some_iff.1 hplace
  simp [lookup, hlocate, entryAt, child?_of_le hname, hget]

/-- Nothing can be made where a path finds an entry. -/
theorem makeDirectory_of_lookup {found : Location × Entry} (h : t.lookup p = .ok found) :
    t.makeDirectory p = .error (.system .alreadyExists) := by
  rcases place_cases t p with ⟨e, hlocate, -⟩ | ⟨target, hlocate, hname, -⟩ |
    ⟨directory, name, slashed, hlocate, hchild, -⟩ | ⟨directory, name, slashed, hlocate, hchild, -⟩
  · simp [lookup, hlocate] at h
  · simp [makeDirectory, hlocate, hname]
  · simp [lookup, hlocate, entryAt, hchild] at h
  · cases hget : t.get? (name :: directory) with
    | none => simp [lookup, hlocate, entryAt, hchild, hget] at h
    | some e => simp [makeDirectory, hlocate, hchild, hget]

end FileTree

end BootImage
