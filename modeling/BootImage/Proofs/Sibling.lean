import BootImage.File.Write
import BootImage.Proofs.Destinations

/-!
# The temporary sibling of a path

* (the sibling) A path that has a temporary sibling ends in a name, and the sibling is this name with an
  ending, behind the same directories: `Path.temporary?_eq_some_iff`, `Path.directories_temporary`.  The two
  lead to different entries of one directory: `FileTree.destination_temporary`.
* (the directories above) Without a step back, a path leads below the directories above it:
  `FileTree.destination_directory_ne`.  Where it can be walked, its parent is there: `FileTree.lookup_parent`.
-/

namespace BootImage

namespace Path

variable {p temporary : Path} {tag name : String} {pieces before : List String}

def directories (p : Path) : List Path := (p.parent?.map ancestors).getD []

def temporaryName (name tag : String) : String := name ++ "." ++ tag ++ ".tmp"

/-- Nothing but empty pieces and dots stands around the last piece that names something. -/
theorem splitLast?_eq_some (h : splitLast? pieces = some (before, name)) :
    isVoid name = false ∧ before.reverse.dropWhile isVoid = before.reverse ∧
      ∃ inner tail, (∀ piece ∈ inner, isVoid piece) ∧ (∀ piece ∈ tail, isVoid piece) ∧
        pieces = before ++ inner ++ name :: tail := by
  unfold splitLast? at h
  split at h
  · contradiction
  · rename_i last rest hlast
    cases h
    obtain ⟨hname, tail, htail, hpieces⟩ := FileTree.eq_append_of_dropWhile_reverse hlast
    refine ⟨hname, ?_, (rest.takeWhile isVoid).reverse, tail, ?_, htail, ?_⟩
    · rw [List.reverse_reverse, List.dropWhile_idempotent]
    · intro piece hpiece
      exact List.mem_takeWhile_imp (List.mem_reverse.1 hpiece)
    · rw [hpieces, ← List.reverse_append, List.takeWhile_append_dropWhile]

theorem splitLast?_append (hname : isVoid name = false)
    (hbefore : before.reverse.dropWhile isVoid = before.reverse) :
    splitLast? (before ++ [name]) = some (before, name) := by
  rw [splitLast?, List.reverse_append, List.reverse_singleton, List.singleton_append,
    List.dropWhile_cons_of_neg (by simp [hname])]
  simp only [hbefore, List.reverse_reverse]

private theorem length_temporaryName (name tag : String) :
    (temporaryName name tag).length = name.length + tag.length + 5 := by
  simp only [temporaryName, String.length_append]
  have hdot : ".".length = 1 := rfl
  have hending : ".tmp".length = 4 := rfl
  omega

theorem temporaryName_ne {other : String} (h : other.length ≤ 4) : temporaryName name tag ≠ other := by
  rintro rfl
  rw [length_temporaryName] at h
  omega

theorem isVoid_temporaryName (name tag : String) : isVoid (temporaryName name tag) = false := by
  have hempty : temporaryName name tag ≠ "" := temporaryName_ne (by decide)
  have hdot : temporaryName name tag ≠ "." := temporaryName_ne (by decide)
  simp [isVoid, hempty, hdot]

theorem temporary?_eq_some_iff :
    p.temporary? tag = some temporary ↔ ∃ before name, splitLast? p.pieces = some (before, name) ∧
      name ≠ ".." ∧
      temporary = ⟨p.anchor, before ++ [temporaryName name tag]⟩ := by
  unfold temporary? fileName? withFileName?
  cases hsplit : splitLast? p.pieces with
  | none => simp
  | some split =>
    obtain ⟨before, name⟩ := split
    by_cases hname : name = ".."
    · simp [hname]
    · simp [hname, temporaryName, Option.filter, eq_comm]

theorem directories_temporary (h : p.temporary? tag = some temporary) :
    temporary.directories = p.directories := by
  obtain ⟨before, name, hsplit, -, rfl⟩ := temporary?_eq_some_iff.1 h
  have hbefore := (splitLast?_eq_some hsplit).2.1
  simp only [directories, parent?, hsplit, splitLast?_append (isVoid_temporaryName name tag) hbefore]

theorem ancestors_of_parent? {parent : Path} (h : p.parent? = some parent) :
    ∃ rest, parent.ancestors = parent :: rest := by
  unfold parent? at h
  split at h
  · rename_i anchor before name hsplit
    cases h
    have hbefore := (splitLast?_eq_some hsplit).2.1
    rw [ancestors]
    cases hpieces : before.reverse with
    | nil =>
      rw [List.reverse_eq_nil_iff.1 hpieces]
      cases p.anchor <;> exact ⟨_, rfl⟩
    | cons last rest =>
      have hhead := List.head?_dropWhile_not isVoid before.reverse
      rw [hbefore, hpieces] at hhead
      have hlast : isVoid last = false := hhead
      refine ⟨above p.anchor rest, ?_⟩
      rw [above, if_neg (by simp [hlast]), ← hpieces, List.reverse_reverse]
  · cases h
    exact ⟨_, rfl⟩
  · contradiction

/-- A directory above a path begins where the path does, and has the first of its pieces. -/
private theorem mem_above {anchor : Anchor} {reversed : List String} {q : Path}
    (h : q ∈ above anchor reversed) :
    (q.anchor = .root ↔ anchor = .root) ∧ q.pieces <+: reversed.reverse := by
  induction reversed with
  | nil =>
    rw [above] at h
    split_ifs at h with hhere
    · rcases List.mem_pair.1 h with rfl | rfl <;> simp [hhere]
    · rw [List.mem_singleton.1 h]
      exact ⟨Iff.rfl, List.nil_prefix⟩
  | cons piece before ih =>
    have hbefore : before.reverse <+: (piece :: before).reverse := by simp
    rw [above] at h
    split_ifs at h
    · exact ⟨(ih h).1, (ih h).2.trans hbefore⟩
    · rcases List.mem_cons.1 h with rfl | h
      · exact ⟨Iff.rfl, List.prefix_rfl⟩
      · exact ⟨(ih h).1, (ih h).2.trans hbefore⟩

/-! ### The parent's text -/

theorem joinSlashes_cons_cons (piece next : String) (rest : List String) :
    joinSlashes (piece :: next :: rest) = piece.toList ++ '/' :: joinSlashes (next :: rest) := by
  rw [joinSlashes, List.map_cons, List.map_cons, List.intercalate_cons_of_ne_nil (List.cons_ne_nil _ _),
    List.append_assoc]
  rfl

private theorem joinSlashes_prefix (pieces rest : List String) :
    joinSlashes pieces <+: joinSlashes (pieces ++ rest) := by
  induction pieces with
  | nil => exact List.nil_prefix
  | cons piece pieces ih =>
    cases pieces with
    | nil =>
      cases rest with
      | nil => exact List.prefix_rfl
      | cons next rest =>
        rw [List.singleton_append, joinSlashes_cons_cons]
        simp [joinSlashes]
    | cons next pieces =>
      rw [List.cons_append] at ih
      rw [List.cons_append, List.cons_append, joinSlashes_cons_cons, joinSlashes_cons_cons]
      exact (List.prefix_append_right_inj _).2 (List.cons_prefix_cons.2 ⟨rfl, ih⟩)

private theorem text_prefix (anchor : Anchor) (pieces rest : List String) :
    (⟨anchor, pieces⟩ : Path).text.toList <+: (⟨anchor, pieces ++ rest⟩ : Path).text.toList := by
  simp only [text, String.toList_ofList]
  cases anchor with
  | root => exact List.cons_prefix_cons.2 ⟨rfl, joinSlashes_prefix pieces rest⟩
  | here => exact joinSlashes_prefix ("." :: pieces) rest
  | bare => exact joinSlashes_prefix pieces rest

end Path

namespace FileTree

variable {t : FileTree} {p temporary : Path} {tag : String}

theorem destination_of_splitLast? {before : List String} {name : String}
    (h : Path.splitLast? p.pieces = some (before, name)) (hparent : name ≠ "..") :
    t.destination p = name :: before.foldl step (t.origin p) := by
  obtain ⟨hname, -, inner, tail, hinner, htail, hpieces⟩ := Path.splitLast?_eq_some h
  rw [destination, hpieces, List.foldl_append, List.foldl_append, List.foldl_cons,
    foldl_step_of_isVoid hinner, foldl_step_of_isVoid htail]
  simp [step, hname, hparent]

/-- A path and its temporary sibling lead to two entries of one directory. -/
theorem destination_temporary (h : p.temporary? tag = some temporary) :
    ∃ name directory, t.destination p = name :: directory ∧
      t.destination temporary = Path.temporaryName name tag :: directory := by
  obtain ⟨before, name, hsplit, hparent, rfl⟩ := Path.temporary?_eq_some_iff.1 h
  have hbefore := (Path.splitLast?_eq_some hsplit).2.1
  have hsibling := Path.splitLast?_append (Path.isVoid_temporaryName name tag) hbefore
  exact ⟨name, before.foldl step (t.origin p), destination_of_splitLast? hsplit hparent,
    destination_of_splitLast? hsibling (Path.temporaryName_ne (by decide))⟩

private theorem length_le_foldl_step {pieces : List String} (h : ".." ∉ pieces) (directory : Location) :
    directory.length ≤ (pieces.foldl step directory).length := by
  induction pieces generalizing directory with
  | nil => exact Nat.le_refl _
  | cons piece rest ih =>
    rw [List.mem_cons, not_or] at h
    refine Nat.le_trans ?_ (ih h.2 (step directory piece))
    rw [step, if_neg (Ne.symm h.1)]
    split_ifs
    · exact Nat.le_refl _
    · exact Nat.le_succ _

/-- A path on which no step goes back leads below the directories above it. -/
theorem destination_directory_ne (h : p.temporary? tag = some temporary) (hforth : ".." ∉ p.pieces) {q : Path}
    (hq : q ∈ p.directories) : t.destination q ≠ t.destination p := by
  obtain ⟨before, name, hsplit, hparent, -⟩ := Path.temporary?_eq_some_iff.1 h
  obtain ⟨-, -, inner, tail, -, -, hpieces⟩ := Path.splitLast?_eq_some hsplit
  simp only [Path.directories, Path.parent?, hsplit, Option.map_some, Option.getD_some, Path.ancestors] at hq
  obtain ⟨hanchor, rest, hrest⟩ := Path.mem_above hq
  rw [List.reverse_reverse] at hrest
  have horigin : t.origin q = t.origin p := by
    rw [origin, origin]
    simp only [hanchor]
  have hbehind : ".." ∉ rest := by
    intro hmem
    rw [hpieces, ← hrest] at hforth
    simp [hmem] at hforth
  have hlength := length_le_foldl_step hbehind (t.destination q)
  rw [destination_of_splitLast? hsplit hparent, ← hrest, List.foldl_append, ← horigin]
  intro heq
  have hlonger := congrArg List.length heq
  rw [List.length_cons] at hlonger
  rw [destination] at hlength hlonger
  omega

theorem destination_temporary_ne (h : p.temporary? tag = some temporary) :
    t.destination temporary ≠ t.destination p := by
  obtain ⟨name, directory, hpath, hsibling⟩ := destination_temporary (t := t) h
  rw [hpath, hsibling]
  intro heq
  have hlength := congrArg String.length (List.cons.inj heq).1
  rw [Path.length_temporaryName] at hlength
  omega

/-- Each piece before one that names something has been entered. -/
private theorem foldlM_enter_of_walk {front tail : List String} {last : String} {target : Target}
    (h : t.walk p = .ok target) (hpieces : p.pieces = front ++ last :: tail) (hlast : last ≠ "") :
    ∃ directory, front.foldlM t.enter (t.origin p) = .ok directory := by
  rw [walk_eq] at h
  split at h
  · rename_i hempty
    have hmem : last ∈ p.pieces.reverse := by simp [hpieces]
    simpa [hlast] using List.dropWhile_eq_nil_iff.1 hempty last hmem
  · rename_i final before hsplit
    obtain ⟨-, slashes, hslashes, hwalked⟩ := eq_append_of_dropWhile_reverse hsplit
    rw [hpieces] at hwalked
    -- The piece cannot stand among the empty ones at the end.
    have hprefix : front <+: before.reverse := by
      rcases List.append_eq_append_iff.1 hwalked with ⟨between, heq, -⟩ | ⟨between, heq, hbehind⟩
      · exact ⟨between, heq.symm⟩
      · cases between with
        | nil => exact ⟨[], by simpa using heq⟩
        | cons piece between =>
          have hmem : last ∈ slashes := by
            rw [(List.cons.inj hbehind).2]
            simp
          simpa [hlast] using hslashes last hmem
    obtain ⟨between, hbetween⟩ := hprefix
    rw [← hbetween, List.foldlM_append] at h
    cases hfront : front.foldlM t.enter (t.origin p) with
    | error e =>
      rw [hfront] at h
      contradiction
    | ok directory => exact ⟨directory, rfl⟩

/-- The last piece is not entered in a walk, but it names what entering it would lead to. -/
private theorem entryAt_of_foldlM {directory : Location}
    (hvoid : p.pieces.reverse.dropWhile Path.isVoid = p.pieces.reverse)
    (h : p.pieces.foldlM t.enter (t.origin p) = .ok directory) :
    ∃ target, t.walk p = .ok target ∧ t.entryAt target = .ok (directory, .directory) := by
  cases hpieces : p.pieces.reverse with
  | nil =>
    rw [List.reverse_eq_nil_iff.1 hpieces] at h
    cases h
    exact ⟨_, by rw [walk_eq, hpieces]; rfl, rfl⟩
  | cons last before =>
    have hlast : Path.isVoid last = false := by
      have hhead := List.head?_dropWhile_not Path.isVoid p.pieces.reverse
      rwa [hvoid, hpieces] at hhead
    have hnamed : last ≠ "" ∧ last ≠ "." := by simpa [Path.isVoid] using hlast
    rw [List.reverse_eq_cons_iff.1 hpieces, List.foldlM_append] at h
    cases hbefore : before.reverse.foldlM t.enter (t.origin p) with
    | error e =>
      rw [hbefore] at h
      contradiction
    | ok parent =>
      have henter : t.enter parent last = .ok directory := by simpa [hbefore] using h
      refine ⟨⟨parent, lastOf last, p.pieces.getLast? = some ""⟩, ?_, ?_⟩
      · rw [walk_eq, hpieces, List.dropWhile_cons_of_neg (by simp [hnamed.1])]
        simp [hbefore, Except.map]
      · rw [enter_eq, if_neg (by simp [hlast])] at henter
        rw [lastOf, if_neg hnamed.2]
        split_ifs at henter ⊢ with hparent hname
        · simp_all [entryAt]
        · simp only [entryAt, child?_of_le hname]
          rcases hget : t.get? (last :: parent) with _ | _ | _ <;> rw [hget] at henter <;> cases henter
          rfl

/-- The first pieces of a path that can be walked can be walked, unless they have no text. -/
private theorem locate_of_prefix {anchor : Anchor} {pieces rest : List String} {target : Target}
    (h : t.locate ⟨anchor, pieces ++ rest⟩ = .ok target) (hempty : (⟨anchor, pieces⟩ : Path).text ≠ "") :
    t.locate ⟨anchor, pieces⟩ = (t.walk ⟨anchor, pieces⟩).mapError .system := by
  obtain ⟨behind, hbehind⟩ := Path.text_prefix anchor pieces rest
  have htext : (⟨anchor, pieces ++ rest⟩ : Path).text =
      (⟨anchor, pieces⟩ : Path).text ++ String.ofList behind := by
    rw [← String.toList_inj, ← hbehind, String.toList_append, String.toList_ofList]
  unfold locate at h ⊢
  rw [htext] at h
  split_ifs at h ⊢ with hnul hlong
  · simp_all
  · rw [String.utf8ByteSize_append] at *
    omega
  · rfl

/-- Where a path can be walked, the directory that its name stands in is there. -/
theorem lookup_parent {parent : Path} {target : Target} (h : t.locate p = .ok target)
    (hsibling : p.temporary? tag = some temporary) (hparent : temporary.parent? = some parent)
    (hempty : parent.text ≠ "") : ∃ location, t.lookup parent = .ok (location, .directory) := by
  obtain ⟨before, name, hsplit, -, rfl⟩ := Path.temporary?_eq_some_iff.1 hsibling
  obtain ⟨hname, hbefore, inner, tail, -, -, hpieces⟩ := Path.splitLast?_eq_some hsplit
  rw [Path.parent?, Path.splitLast?_append (Path.isVoid_temporaryName name tag) hbefore] at hparent
  cases hparent
  have hnamed : name ≠ "" := by
    rintro rfl
    contradiction
  obtain ⟨reached, hreached⟩ := foldlM_enter_of_walk (walk_of_locate h) hpieces hnamed
  cases hparents : before.foldlM t.enter (t.origin p) with
  | error e =>
    rw [List.foldlM_append, hparents] at hreached
    contradiction
  | ok directory =>
    obtain ⟨found, hwalk, hentry⟩ := entryAt_of_foldlM (p := ⟨p.anchor, before⟩) hbefore hparents
    rw [show p = ⟨p.anchor, before ++ (inner ++ name :: tail)⟩ by rw [← List.append_assoc, ← hpieces]] at h
    refine ⟨directory, ?_⟩
    rw [lookup, locate_of_prefix h hempty, hwalk]
    exact congrArg (Except.mapError FileError.system) hentry

end FileTree

end BootImage
